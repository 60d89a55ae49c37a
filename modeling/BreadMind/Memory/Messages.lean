import Mathlib.Data.List.Basic
import Mathlib.Data.List.Infix
import BreadMind.Base.Values

namespace BreadMind
namespace Memory

/-!
# Messages and slices of a history

A history is a list of messages.  The operations which shrink it cut it with
slices at negative positions, where a count of zero is a special case: the last
zero messages of `messages[-0:]` are all of them.
-/

inductive Role where
  | user
  | assistant
  | system
  | tool
  deriving DecidableEq

structure ToolCall where
  id : String
  name : String
  arguments : Json

structure LLMMessage where
  role : Role
  content : Option String := none
  toolCalls : List ToolCall := []
  toolCallId : Option String := none
  name : Option String := none

namespace LLMMessage

/-- `msg.content or ""`. -/
def text (message : LLMMessage) : String := message.content.getD ""

/-- `bool(msg.content)`. -/
def hasContent (message : LLMMessage) : Bool := message.text ≠ ""

end LLMMessage

def occursIn (part text : String) : Bool := decide (part.toList <:+: text.toList)

def firstChars (count : Nat) (text : String) : String := String.ofList (text.toList.take count)

section Slices

variable {Item : Type}

variable (count : Nat) (items : List Item)

def lastOf : List Item :=
  if count = 0 then items else items.drop (items.length - count)

def butLast : List Item :=
  if count = 0 then [] else items.take (items.length - count)

theorem butLast_append_lastOf : butLast count items ++ lastOf count items = items := by
  unfold butLast lastOf
  split
  · rfl
  · exact List.take_append_drop _ items

theorem lastOf_suffix : lastOf count items <:+ items :=
  ⟨butLast count items, butLast_append_lastOf count items⟩

/-- How many items a slice at the end leaves out. -/
def cutBefore : Nat := (butLast count items).length

theorem drop_cutBefore : items.drop (cutBefore count items) = lastOf count items := by
  have whole := butLast_append_lastOf count items
  unfold cutBefore
  nth_rewrite 2 [← whole]
  exact List.drop_left

theorem lastOf_append {count : Nat} {front items : List Item} (some_ : count ≠ 0)
    (enough : count ≤ items.length) : lastOf count (front ++ items) = lastOf count items := by
  unfold lastOf
  rw [if_neg some_, if_neg some_, List.length_append, Nat.add_sub_assoc enough,
    List.drop_length_add_append]

end Slices

end Memory
end BreadMind
