import Mathlib.Data.List.Forall2
import BreadMind.Memory.Compressor

namespace BreadMind
namespace Memory

/-!
# Calls and their answers in a history

A provider takes a history only when every tool message answers a call made
before it and every call is answered after it.  Of a history that is cut, the
kept part has its answers anyway: what may be missing are the calls.
-/

def Calls (messages : List LLMMessage) (id : String) : Prop :=
  ∃ message ∈ messages, message.role = .assistant ∧
    ∃ call ∈ message.toolCalls, call.id = id

def Answered (messages : List LLMMessage) (id : String) : Prop :=
  ∃ message ∈ messages, message.role = .tool ∧ message.toolCallId = some id

structure Paired (messages : List LLMMessage) : Prop where
  called : ∀ before message after, messages = before ++ message :: after ->
    message.role = .tool -> ∃ id, message.toolCallId = some id ∧ Calls before id
  answered : ∀ before message after, messages = before ++ message :: after ->
    message.role = .assistant -> ∀ call ∈ message.toolCalls, Answered after call.id

/-- An exchange stands across the cut: a message after it answers a call which
was made before it, and not again after it. -/
def Straddles (cut kept : List LLMMessage) : Prop :=
  ∃ before message after id,
    kept = before ++ message :: after ∧ message.role = .tool ∧ message.toolCallId = some id ∧
      Calls cut id ∧ Not (Calls before id)

def StraddlesAt (count : Nat) (messages : List LLMMessage) : Prop :=
  Straddles (messages.take count) (messages.drop count)

variable {messages cut kept front : List LLMMessage}

theorem calls_append {id : String} : Calls (cut ++ kept) id <-> Calls cut id ∨ Calls kept id := by
  constructor
  · rintro ⟨message, member, makes⟩
    exact (List.mem_append.mp member).imp (fun here => ⟨message, here, makes⟩)
      fun there => ⟨message, there, makes⟩
  · rintro (⟨message, here, makes⟩ | ⟨message, there, makes⟩)
    · exact ⟨message, List.mem_append_left kept here, makes⟩
    · exact ⟨message, List.mem_append_right cut there, makes⟩

/-- Every tool message answers a call made before it. -/
def AllCalled (messages : List LLMMessage) : Prop :=
  ∀ before message after, messages = before ++ message :: after ->
    message.role = .tool -> ∃ id, message.toolCallId = some id ∧ Calls before id

theorem allCalled_kept (called : AllCalled (cut ++ kept)) :
    AllCalled kept <-> Not (Straddles cut kept) := by
  constructor
  · rintro whole ⟨before, message, after, id, split, tool, answers, _, uncalled⟩
    rcases whole before message after split tool with ⟨other, same, inside⟩
    cases answers.symm.trans same
    exact uncalled inside
  · intro apart before message after split tool
    have place : cut ++ kept = (cut ++ before) ++ message :: after := by
      rw [split, List.append_assoc]
    rcases called _ message after place tool with ⟨id, answers, found⟩
    refine ⟨id, answers, ?_⟩
    rcases calls_append.mp found with outside | inside
    · exact by_contra fun uncalled =>
        apart ⟨before, message, after, id, split, tool, answers, outside, uncalled⟩
    · exact inside

theorem paired_kept (paired : Paired (cut ++ kept)) : Paired kept <-> Not (Straddles cut kept) := by
  constructor
  · intro whole
    exact (allCalled_kept paired.called).mp whole.called
  · intro apart
    refine ⟨(allCalled_kept paired.called).mpr apart, ?_⟩
    intro before message after split assistant
    refine paired.answered (cut ++ before) message after ?_ assistant
    rw [split, List.append_assoc]

theorem split_append {before after : List LLMMessage} {message : LLMMessage}
    (split : front ++ kept = before ++ message :: after) :
    message ∈ front ∨ ∃ inner, before = front ++ inner ∧ kept = inner ++ message :: after := by
  rcases List.append_eq_append_iff.mp split with ⟨inner, same, rest⟩ | ⟨inner, same, rest⟩
  · exact .inr ⟨inner, same, rest⟩
  · cases inner with
    | nil => exact .inr ⟨[], by rw [same]; exact ⟨(List.append_nil _).symm.trans
        (List.append_nil _).symm, rest.symm⟩⟩
    | cons head tail =>
      refine Or.inl ?_
      rw [same, (List.cons.inj rest).1]
      exact List.mem_append_right before List.mem_cons_self

theorem not_calls_system (system : ∀ message ∈ front, message.role = .system)
    (id : String) : Not (Calls front id) := by
  rintro ⟨message, member, assistant, _⟩
  rw [system message member] at assistant
  cases assistant

theorem allCalled_front (system : ∀ message ∈ front, message.role = .system) :
    AllCalled (front ++ kept) <-> AllCalled kept := by
  constructor
  · intro called
    refine (allCalled_kept called).mpr ?_
    rintro ⟨_, _, _, id, _, _, _, outside, _⟩
    exact not_calls_system system id outside
  · intro called before message after split tool
    rcases split_append split with first | ⟨inner, same, rest⟩
    · rw [system message first] at tool
      cases tool
    · rcases called inner message after rest tool with ⟨id, answers, found⟩
      exact ⟨id, answers, same ▸ calls_append.mpr (.inr found)⟩

theorem paired_front (system : ∀ message ∈ front, message.role = .system) :
    Paired (front ++ kept) <-> Paired kept := by
  constructor
  · intro paired
    refine (paired_kept paired).mpr ?_
    rintro ⟨_, _, _, id, _, _, _, outside, _⟩
    exact not_calls_system system id outside
  · intro paired
    refine ⟨(allCalled_front system).mpr paired.called, ?_⟩
    intro before message after split assistant
    rcases split_append split with first | ⟨inner, _, rest⟩
    · rw [system message first] at assistant
      cases assistant
    · exact paired.answered inner message after rest assistant

/-! ## Messages with other contents -/

def SameExchange (message now : LLMMessage) : Prop :=
  now.role = message.role ∧ (message.role = .tool -> now.toolCallId = message.toolCallId) ∧
    (message.role = .assistant -> now.toolCalls = message.toolCalls)

theorem calls_sameExchange {now : List LLMMessage} (same : List.Forall₂ SameExchange messages now)
    {id : String} (calls : Calls messages id) : Calls now id := by
  rcases calls with ⟨message, member, assistant, call, made, answers⟩
  induction same with
  | nil => cases member
  | cons pair _ ih =>
    rcases List.mem_cons.mp member with rfl | later
    · exact ⟨_, List.mem_cons_self, pair.1.trans assistant, call,
        (pair.2.2 assistant).symm ▸ made, answers⟩
    · rcases ih later with ⟨other, there, makes⟩
      exact ⟨other, List.mem_cons_of_mem _ there, makes⟩

theorem allCalled_sameExchange {now : List LLMMessage}
    (same : List.Forall₂ SameExchange messages now) (called : AllCalled messages) : AllCalled now := by
  intro before message after split tool
  rw [split] at same
  have front := List.forall₂_take_append messages before (message :: after) same
  rcases List.forall₂_cons_right_iff.mp
      (List.forall₂_drop_append messages before (message :: after) same) with
    ⟨added, rest, pair, _, behind⟩
  have whole : messages = messages.take before.length ++ added :: rest := by
    rw [← behind, List.take_append_drop]
  have role : added.role = .tool := pair.1.symm.trans tool
  rcases called _ added rest whole role with ⟨id, answers, found⟩
  exact ⟨id, (pair.2.1 role).trans answers, calls_sameExchange front found⟩

section Contents

variable {change : LLMMessage -> LLMMessage}
  (role : ∀ message, (change message).role = message.role)
  (answers : ∀ message, message.role = .tool -> (change message).toolCallId = message.toolCallId)
  (calls : ∀ message, message.role = .assistant -> (change message).toolCalls = message.toolCalls)

include role calls in
theorem calls_map {id : String} : Calls (messages.map change) id <-> Calls messages id := by
  constructor
  · rintro ⟨_, member, assistant, call, made, same⟩
    rcases List.mem_map.mp member with ⟨message, here, rfl⟩
    rw [role] at assistant
    rw [calls message assistant] at made
    exact ⟨message, here, assistant, call, made, same⟩
  · rintro ⟨message, here, assistant, call, made, same⟩
    exact ⟨change message, List.mem_map_of_mem here, (role message).trans assistant, call,
      (calls message assistant).symm ▸ made, same⟩

include role answers in
theorem answered_map {id : String} : Answered (messages.map change) id <-> Answered messages id := by
  constructor
  · rintro ⟨_, member, tool, same⟩
    rcases List.mem_map.mp member with ⟨message, here, rfl⟩
    rw [role] at tool
    exact ⟨message, here, tool, (answers message tool).symm.trans same⟩
  · rintro ⟨message, here, tool, same⟩
    exact ⟨change message, List.mem_map_of_mem here, (role message).trans tool,
      (answers message tool).trans same⟩

include role answers calls in
theorem paired_map : Paired (messages.map change) <-> Paired messages := by
  constructor
  · intro paired
    constructor
    · intro before message after split tool
      have place : messages.map change =
          before.map change ++ change message :: after.map change := by
        rw [split, List.map_append, List.map_cons]
      rcases paired.called _ _ _ place ((role message).trans tool) with ⟨id, same, called⟩
      exact ⟨id, (answers message tool).symm.trans same, (calls_map role calls).mp called⟩
    · intro before message after split assistant call made
      have place : messages.map change =
          before.map change ++ change message :: after.map change := by
        rw [split, List.map_append, List.map_cons]
      exact (answered_map role answers).mp (paired.answered _ _ _ place
        ((role message).trans assistant) call ((calls message assistant).symm ▸ made))
  · intro paired
    constructor
    · intro before message after split tool
      rcases List.map_eq_append_iff.mp split with ⟨first, second, parts, rfl, rest⟩
      rcases List.map_eq_cons_iff.mp rest with ⟨inner, later, same, rfl, rfl⟩
      rw [role] at tool
      rcases paired.called first inner later (same ▸ parts) tool with ⟨id, answers_, called⟩
      exact ⟨id, (answers inner tool).trans answers_, (calls_map role calls).mpr called⟩
    · intro before message after split assistant call made
      rcases List.map_eq_append_iff.mp split with ⟨first, second, parts, rfl, rest⟩
      rcases List.map_eq_cons_iff.mp rest with ⟨inner, later, same, rfl, rfl⟩
      rw [role] at assistant
      rw [calls inner assistant] at made
      exact (answered_map role answers).mpr
        (paired.answered first inner later (same ▸ parts) assistant call made)

end Contents

theorem paired_truncate : Paired (truncateToolResults messages) <-> Paired messages := by
  refine paired_map truncateToolResult_role ?_ ?_
  · intro message tool
    unfold truncateToolResult
    split
    · rfl
    · split
      case isTrue user =>
        rw [tool] at user
        cases user.1
      case isFalse => rfl
  · intro message assistant
    unfold truncateToolResult
    rw [assistant, if_neg (fun both => nomatch both.1), if_neg (fun both => nomatch both.1)]

theorem paired_cut (paired : Paired messages)
    (system : ∀ message ∈ front, message.role = .system) (count : Nat) :
    Paired (front ++ messages.drop count) <-> Not (StraddlesAt count messages) := by
  rw [paired_front system]
  rw [← List.take_append_drop count messages] at paired
  exact paired_kept paired

theorem not_straddlesAt_zero : Not (StraddlesAt 0 messages) := by
  rintro ⟨_, _, _, _, _, _, _, ⟨_, member, _⟩, _⟩
  cases member

theorem paired_uncut (paired : Paired messages) : Paired messages <-> Not (StraddlesAt 0 messages) :=
  iff_of_true paired not_straddlesAt_zero

end Memory
end BreadMind
