import Mathlib.Data.List.Forall2
import BreadMind.Execution.Machine
import BreadMind.Memory.Compressor

namespace BreadMind
namespace Memory

open Execution

/-!
# A session while it is compressed

Adding a message is one synchronous step.  The compression of the session is a
task which waits for the hook and for the provider; meanwhile messages are
added, and a truncation may put another list in the place of the one which the
task has.  In the end the task replaces the messages of the session by a list
made from what it has read.
-/

/-- A list of messages with what is known of it: the messages which its summary
stands for, all messages added till it was read, and whether any were cut off
without a summary.  All but the list are kept beside the code. -/
structure View where
  messages : List LLMMessage := []
  summarised : List LLMMessage := []
  upTo : List LLMMessage := []
  trimmed : Bool := false

namespace View

def add (view : View) (message : LLMMessage) : View :=
  { view with messages := view.messages ++ [message], upTo := view.upTo ++ [message] }

/-- The last messages are kept, with their tool results cut. -/
def trim (count : Nat) (view : View) : View :=
  { view with
    messages := truncateToolResults (lastOf count view.messages)
    summarised :=
      if (lastOf count view.messages).length = view.messages.length then view.summarised else []
    trimmed :=
      view.trimmed || (lastOf count view.messages).length != view.messages.length }

/-- The messages which a summary of the split stands for; an earlier summary
stands for what it stood for. -/
def covers (view : View) (split : Split) : List LLMMessage :=
  if view.summarised = [] then split.existing.toList ++ split.old else view.summarised ++ split.old

/-- The old messages are replaced by a summary. -/
def summarise (view : View) (split : Split) (summary : String) : View :=
  { view with
    messages := summaryMessage split summary :: split.recent, summarised := view.covers split }

end View

/-- Where a compression waits.  `held` is the list it has, once that is no more
the one of the session; `read` is the list as it was split. -/
inductive CompressTask where
  | scheduled
  | hook (held : Option View)
  | chat (held : Option View) (split : Split) (read : View)

structure WorkingMemory where
  maxMessages : Nat := 50
  compressThreshold : Nat := 30
  keepRecent : Nat := 10
  provider : Bool := false

/-- The `upTo` of the view is all messages added to the session. -/
structure Session where
  view : View := {}
  task : Option CompressTask := none

inductive SessionInput where
  | add (message : LLMMessage) (loop : Bool)
  | begin
  | hook (decision : Decision)
  | hookRaised
  | chat (answer : Chat)

namespace CompressTask

/-- The session gets another list, so the task has the one which was there. -/
def detach (view : View) : CompressTask -> CompressTask
  | scheduled => scheduled
  | hook held => hook (some (held.getD view))
  | chat held split read => chat (some (held.getD view)) split read

end CompressTask

namespace Session

variable (memory : WorkingMemory)

variable (session : Session)

/-- `add_message`; without a running loop no task can be created. -/
def add (message : LLMMessage) (loop : Bool) : Session :=
  let view := session.view.add message
  if memory.compressThreshold ≤ view.messages.length ∧ memory.provider = true ∧
      session.task.isNone = true then
    { session with view := view, task := if loop = true then some .scheduled else none }
  else if memory.maxMessages < view.messages.length then
    { session with
      view := view.trim memory.maxMessages, task := session.task.map fun task => task.detach view }
  else { session with view := view }

def write (view : View) : Session :=
  { view := { view with upTo := session.view.upTo }, task := none }

/-- What the decision of the hook leads to: a list to be returned at once, or
the call of the provider. -/
def afterHook (held : Option View) : Decision -> View ⊕ CompressTask
  | .block => .inl (held.getD session.view)
  | .modify (some patch) => compress (some { messages := patch }) { messages := patch }
  | .modify none | .proceed => compress held (held.getD session.view)
where
  /-- The list is split, if there is enough of it. -/
  compress (held : Option View) (view : View) : View ⊕ CompressTask :=
    match splitHistory memory.keepRecent view.messages with
    | none => .inl view
    | some split => .inr (.chat held split view)

def afterAnswer (held : Option View) (split : Split) (read : View) (answer : Chat) : View :=
  match answer.summary with
  | some summary => read.summarise split summary
  | none => (held.getD session.view).trim (memory.keepRecent * 2)

def step (session : Session) (input : SessionInput) : Session :=
  match input, session.task with
  | .add message loop, _ => session.add memory message loop
  | .begin, some .scheduled =>
    if session.view.messages.length < memory.compressThreshold then { session with task := none }
    else { session with task := some (.hook none) }
  | .hook decision, some (.hook held) =>
    match session.afterHook memory held decision with
    | .inl view => session.write view
    | .inr task => { session with task := some task }
  | .hookRaised, some (.hook _) => { session with task := none }
  | .chat answer, some (.chat held split read) =>
    session.write (session.afterAnswer memory held split read answer)
  | _, _ => session

def machine : Machine Session SessionInput where
  initial := {}
  step := step memory

end Session

def Cut (added now : LLMMessage) : Prop :=
  ∃ times : Nat, now = truncateToolResult^[times] added

def Kept (added now : List LLMMessage) : Prop := List.Forall₂ Cut added now

/-- The message was written as a summary of these messages, directly or through
an earlier summary. -/
inductive SummaryOf : LLMMessage -> List LLMMessage -> Prop where
  | first (split : Split) (summary : String) (none_ : split.existing = none)
      (some_ : split.old ≠ []) : SummaryOf (summaryMessage split summary) split.old
  | marked (split : Split) (summary : String) {added : LLMMessage}
      (existing : split.existing = some added) :
      SummaryOf (summaryMessage split summary) (added :: split.old)
  | again (split : Split) (summary : String) {earlier : LLMMessage} {before : List LLMMessage}
      (existing : split.existing = some earlier) (summaryOf : SummaryOf earlier before) :
      SummaryOf (summaryMessage split summary) (before ++ split.old)

/-- The head of a list: nothing, or a summary. -/
def Head (head summarised : List LLMMessage) : Prop :=
  (head = [] ∧ summarised = []) ∨
    ∃ summary, head = [summary] ∧ SummaryOf summary summarised

/-- The list is a summary of earlier messages, if there is one, and every later
message in its order; before those stands what was cut off, if anything was. -/
def Faithful (view : View) : Prop :=
  ∃ gone covered later head now, view.upTo = gone ++ covered ++ later ∧ view.messages = head ++ now ∧
      Kept covered view.summarised ∧ Kept later now ∧ Head head view.summarised ∧
      (view.trimmed = false -> gone = [])

/-- Nothing was cut off: the list is a summary of a prefix, if there is one, and
every later message in its order. -/
def Whole (view : View) : Prop :=
  ∃ covered later head now, view.upTo = covered ++ later ∧ view.messages = head ++ now ∧
    Kept covered view.summarised ∧ Kept later now ∧ Head head view.summarised

namespace Session

/-- When no compression is under way, no message is lost. -/
def Complete (session : Session) : Prop := session.task = none -> Whole session.view

/-- A list which a task returns takes in all messages added so far, and no hook
replaces the messages. -/
def InTime (memory : WorkingMemory) (session : Session) (input : SessionInput) : Prop :=
  match input, session.task with
  | .hook decision, some (.hook held) =>
    (∀ patch, decision ≠ .modify (some patch)) ∧
      ∀ view, session.afterHook memory held decision = .inl view ->
        view.upTo = session.view.upTo
  | .chat answer, some (.chat held split read) =>
    (session.afterAnswer memory held split read answer).upTo = session.view.upTo
  | _, _ => True

/-- No fallback cuts a message off: there is room for an added one, unless it brings
about a compression, and where the provider gives no summary all messages are recent. -/
def Roomy (memory : WorkingMemory) (session : Session) (input : SessionInput) : Prop :=
  match input, session.task with
  | .add _ _, task =>
    memory.maxMessages ≤ session.view.messages.length ->
      memory.compressThreshold ≤ session.view.messages.length + 1 ∧ memory.provider = true ∧
        task.isNone = true
  | .chat answer, some (.chat held _ _) =>
    answer.summary = none ->
      lastOf (memory.keepRecent * 2) (held.getD session.view).messages =
        (held.getD session.view).messages
  | _, _ => True

def Lossless (memory : WorkingMemory) (session : Session) (input : SessionInput) : Prop :=
  session.InTime memory input ∧ session.Roomy memory input

end Session

/-! ## What the operations on a list keep -/

theorem Cut.refl (message : LLMMessage) : Cut message message := ⟨0, rfl⟩

theorem Cut.truncate {added now : LLMMessage} (cut : Cut added now) :
    Cut added (truncateToolResult now) := by
  rcases cut with ⟨times, same⟩
  exact ⟨times + 1, by rw [same, Function.iterate_succ_apply']⟩

theorem kept_truncate {added now : List LLMMessage} (kept : Kept added now) :
    Kept added (truncateToolResults now) :=
  List.forall₂_map_right_iff.mpr (kept.imp fun _ _ cut => cut.truncate)

theorem isSummary_summaryMessage (split : Split) (summary : String) :
    isSummary (summaryMessage split summary) = true := by
  unfold isSummary summaryMessage
  rw [Bool.and_eq_true]
  refine ⟨rfl, decide_eq_true ?_⟩
  change summaryMark.toList <:+: (_ ++ _ ++ _ ++ _ ++ summary).toList
  simp only [String.toList_append, List.append_assoc]
  exact (List.prefix_append _ _).isInfix

variable {summarised : List LLMMessage}

theorem SummaryOf.recognised {summary : LLMMessage}
    (summaryOf : SummaryOf summary summarised) : isSummary summary = true := by
  cases summaryOf with
  | first split text | marked split text | again split text =>
    exact isSummary_summaryMessage split text

theorem SummaryOf.ne_nil {summary : LLMMessage}
    (summaryOf : SummaryOf summary summarised) : summarised ≠ [] := by
  induction summaryOf with
  | first split text none_ some_ => exact some_
  | marked split text existing => exact List.cons_ne_nil _ _
  | again split text existing summaryOf ih => exact List.append_ne_nil_of_left_ne_nil ih _

theorem truncateToolResult_system {message : LLMMessage} (system : message.role = .system) :
    truncateToolResult message = message := by
  unfold truncateToolResult
  rw [system, if_neg (fun both => nomatch both.1), if_neg (fun both => nomatch both.1)]

theorem isSummary_role {message : LLMMessage} (summary : isSummary message = true) :
    message.role = .system :=
  of_decide_eq_true (Bool.and_eq_true_iff.mp summary).1

theorem Head.truncate {head : List LLMMessage} (summary : Head head summarised) :
    truncateToolResults head = head := by
  rcases summary with ⟨none_, _⟩ | ⟨message, one, summaryOf⟩
  · rw [none_]
    rfl
  · rw [one]
    exact congrArg (fun message => [message])
      (truncateToolResult_system (isSummary_role summaryOf.recognised))

theorem Head.length_le {head : List LLMMessage} (summary : Head head summarised) :
    head.length ≤ 1 := by
  rcases summary with ⟨none_, _⟩ | ⟨message, one, _⟩
  · rw [none_]
    exact Nat.zero_le 1
  · rw [one]
    exact Nat.le_refl 1

variable {view : View}

theorem faithful_initial : Faithful {} :=
  ⟨[], [], [], [], [], rfl, rfl, List.Forall₂.nil, List.Forall₂.nil, .inl ⟨rfl, rfl⟩, fun _ => rfl⟩

theorem faithful_add (faithful : Faithful view) (message : LLMMessage) :
    Faithful (view.add message) := by
  rcases faithful with ⟨gone, covered, later, head, now, log, messages, old, kept, summary, whole⟩
  refine ⟨gone, covered, later ++ [message], head, now ++ [message], ?_, ?_, old, ?_, summary,
    whole⟩
  · change view.upTo ++ [message] = _
    rw [log, List.append_assoc]
  · change view.messages ++ [message] = _
    rw [messages, List.append_assoc]
  · exact List.rel_append kept (List.Forall₂.cons (Cut.refl message) List.Forall₂.nil)

theorem Faithful.whole (faithful : Faithful view) (untrimmed : view.trimmed = false) : Whole view := by
  rcases faithful with ⟨gone, covered, later, head, now, log, messages, old, kept, summary, whole⟩
  rw [whole untrimmed, List.nil_append] at log
  exact ⟨covered, later, head, now, log, messages, old, kept, summary⟩

theorem faithful_trim (faithful : Faithful view) (count : Nat) : Faithful (view.trim count) := by
  rcases faithful with ⟨gone, covered, later, head, now, log, messages, old, kept, summary, whole⟩
  unfold View.trim
  by_cases all : (lastOf count view.messages).length = view.messages.length
  · rw [if_pos all, (lastOf_suffix count view.messages).eq_of_length all, messages]
    refine ⟨gone, covered, later, head, truncateToolResults now, log, ?_, old, kept_truncate kept,
      summary, fun untrimmed => whole (Bool.or_eq_false_iff.mp untrimmed).1⟩
    change truncateToolResults (head ++ now) = head ++ truncateToolResults now
    unfold truncateToolResults
    rw [List.map_append]
    exact congrArg (fun front => front ++ _) (Head.truncate summary)
  · rw [if_neg all]
    -- At least one message goes, so the summary does.
    rcases lastOf_suffix count view.messages with ⟨front, split⟩
    have some_ : 1 ≤ front.length := by
      have total := congrArg List.length split
      rw [List.length_append] at total
      omega
    have rest : lastOf count view.messages = now.drop (front.length - head.length) := by
      have whole : (front ++ lastOf count view.messages).drop front.length =
          (head ++ now).drop front.length := by
        rw [split, messages]
      rw [List.drop_left, List.drop_append,
        List.drop_of_length_le (Nat.le_trans (Head.length_le summary) some_), List.nil_append] at whole
      exact whole
    rw [rest]
    refine ⟨gone ++ covered ++ later.take (front.length - head.length), [],
      later.drop (front.length - head.length), [], _, ?_, rfl, List.Forall₂.nil,
      kept_truncate (List.forall₂_drop _ kept), .inl ⟨rfl, rfl⟩, fun untrimmed => ?_⟩
    · rw [List.append_nil, List.append_assoc, List.take_append_drop]
      exact log
    · rw [← rest] at untrimmed
      exact absurd (bne_eq_false_iff_eq.mp (Bool.or_eq_false_iff.mp untrimmed).2) all

theorem summaryOf_split (split : Split) (text : String) (some_ : split.old ≠ []) :
    SummaryOf (summaryMessage split text) (split.existing.toList ++ split.old) := by
  cases existing : split.existing with
  | none => exact SummaryOf.first split text existing some_
  | some added => exact SummaryOf.marked split text existing

theorem faithful_summarise (faithful : Faithful view) {keepRecent : Nat} {split : Split}
    (splits : splitHistory keepRecent view.messages = some split) (text : String) :
    Faithful (view.summarise split text) := by
  rcases faithful with ⟨gone, covered, later, head, now, log, messages, old, kept, summary, whole⟩
  rcases splitHistory_some splits with ⟨parts, some_, _, seen⟩
  rw [messages] at parts
  unfold View.summarise View.covers
  rcases summary with ⟨none_, summarised⟩ | ⟨message, one, summaryOf⟩
  · rw [none_, List.nil_append] at parts
    rw [summarised] at old
    rw [if_pos summarised]
    have before := List.forall₂_take (split.existing.toList ++ split.old).length kept
    have after := List.forall₂_drop (split.existing.toList ++ split.old).length kept
    rw [parts, List.take_left] at before
    rw [parts, List.drop_left] at after
    refine ⟨gone, later.take _, later.drop _, [_], split.recent, ?_, rfl, before, after,
      .inr ⟨_, rfl, summaryOf_split split text some_⟩, whole⟩
    rw [List.append_assoc, List.take_append_drop, log, List.forall₂_nil_right_iff.mp old,
      List.append_nil]
  · rw [one] at parts
    rw [if_neg summaryOf.ne_nil]
    cases existing : split.existing with
    | none =>
      rw [existing] at parts
      cases first : split.old with
      | nil => exact absurd first some_
      | cons head rest =>
        rw [first] at parts
        have same : message = head := (List.cons.inj parts).1
        have plain := seen head rest first existing
        rw [← same, summaryOf.recognised] at plain
        cases plain
    | some earlier =>
      rw [existing] at parts
      rcases List.cons.inj parts with ⟨same, rest⟩
      change now = split.old ++ split.recent at rest
      have before := List.forall₂_take split.old.length kept
      have after := List.forall₂_drop split.old.length kept
      rw [rest, List.take_left] at before
      rw [rest, List.drop_left] at after
      refine ⟨gone, covered ++ later.take _, later.drop _, [_], split.recent, ?_, rfl,
        List.rel_append old before, after,
        .inr ⟨_, rfl, SummaryOf.again split text existing (same ▸ summaryOf)⟩, whole⟩
      rw [List.append_assoc gone, List.append_assoc covered, List.take_append_drop,
        ← List.append_assoc]
      exact log

/-! ## The session -/

def Reads : CompressTask -> Prop
  | .scheduled => True
  | .hook held => ∀ view, held = some view -> Faithful view
  | .chat held split read => (∀ view, held = some view -> Faithful view) ∧
      ∀ text, Faithful (read.summarise split text)

theorem faithful_held {held : Option View} (faithful : Faithful view)
    (holds : ∀ own, held = some own -> Faithful own) : Faithful (held.getD view) := by
  cases held with
  | none => exact faithful
  | some own => exact holds own rfl

theorem Reads.detach {task : CompressTask} (reads : Reads task) (faithful : Faithful view) :
    Reads (task.detach view) := by
  cases task with
  | scheduled => trivial
  | hook held =>
    intro own same
    cases same
    exact faithful_held faithful reads
  | chat held split read =>
    refine ⟨fun own same => ?_, reads.2⟩
    cases same
    exact faithful_held faithful reads.1

namespace Session

variable {memory : WorkingMemory} {session : Session}

structure Sound (session : Session) : Prop where
  faithful : Faithful session.view
  reads : ∀ task, session.task = some task -> Reads task

theorem sound_add (sound : Sound session) (message : LLMMessage) (loop : Bool) :
    Sound (session.add memory message loop) := by
  have added := faithful_add sound.faithful message
  unfold add
  simp only
  split
  · refine ⟨added, ?_⟩
    intro task created
    cases loop with
    | false => cases created
    | true =>
      cases created
      trivial
  · split
    · refine ⟨faithful_trim added memory.maxMessages, ?_⟩
      intro task detached
      rcases Option.map_eq_some_iff.mp detached with ⟨before, there, same⟩
      rw [← same]
      exact (sound.reads before there).detach added
    · exact ⟨added, sound.reads⟩

theorem sound_free (sound : Sound session) : Sound { session with task := none } :=
  ⟨sound.faithful, fun _ impossible => nomatch impossible⟩

theorem sound_write {own : View} (faithful : Faithful own) (inTime : own.upTo = session.view.upTo) :
    Sound (session.write own) := by
  refine ⟨?_, fun _ impossible => nomatch impossible⟩
  unfold write
  rw [← inTime]
  exact faithful

variable {held : Option View}

theorem afterHook_reads {own : View} (faithful : Faithful own)
    (holds : ∀ view, held = some view -> Faithful view) :
    (∀ view, afterHook.compress memory held own = .inl view -> Faithful view) ∧
      ∀ task, afterHook.compress memory held own = .inr task -> Reads task := by
  unfold afterHook.compress
  cases splits : splitHistory memory.keepRecent own.messages with
  | none =>
    refine ⟨fun view same => ?_, fun _ impossible => nomatch impossible⟩
    cases same
    exact faithful
  | some split =>
    refine ⟨(fun _ impossible => nomatch impossible), fun task same => ?_⟩
    cases same
    exact ⟨holds, fun text => faithful_summarise faithful splits text⟩

theorem sound_hook (sound : Sound session)
    (there : session.task = some (.hook held)) (decision : Decision)
    (inTime : InTime memory session (.hook decision)) :
    Sound (match session.afterHook memory held decision with
      | .inl view => session.write view
      | .inr task => { session with task := some task }) := by
  have holds : ∀ view, held = some view -> Faithful view := sound.reads _ there
  have own := faithful_held sound.faithful holds
  unfold InTime at inTime
  rw [there] at inTime
  rcases inTime with ⟨unpatched, current⟩
  have reads : (∀ view, session.afterHook memory held decision = .inl view -> Faithful view) ∧
      ∀ task, session.afterHook memory held decision = .inr task -> Reads task := by
    cases decision with
    | block =>
      refine ⟨fun view same => ?_, fun _ impossible => nomatch impossible⟩
      cases same
      exact own
    | proceed => exact afterHook_reads own holds
    | modify patch =>
      cases patch with
      | none => exact afterHook_reads own holds
      | some messages => exact absurd rfl (unpatched messages)
  cases result : session.afterHook memory held decision with
  | inl view => exact sound_write (reads.1 view result) (current view result)
  | inr task =>
    refine ⟨sound.faithful, fun other same => ?_⟩
    cases same
    exact reads.2 task result

theorem sound_chat (sound : Sound session) {split : Split} {read : View}
    (there : session.task = some (.chat held split read)) (answer : Chat)
    (inTime : InTime memory session (.chat answer)) :
    Sound (session.write (session.afterAnswer memory held split read answer)) := by
  have reads : (∀ view, held = some view -> Faithful view) ∧
      ∀ text, Faithful (read.summarise split text) := sound.reads _ there
  unfold InTime at inTime
  rw [there] at inTime
  refine sound_write ?_ inTime
  unfold afterAnswer
  cases answer.summary with
  | some summary => exact reads.2 summary
  | none => exact faithful_trim (faithful_held sound.faithful reads.1) _

theorem sound_step (sound : Sound session) (input : SessionInput)
    (inTime : InTime memory session input) : Sound (session.step memory input) := by
  unfold step
  split
  case h_1 message loop => exact sound_add sound message loop
  case h_2 there =>
    split
    · exact sound_free sound
    · refine ⟨sound.faithful, fun task same => ?_⟩
      cases same
      exact fun _ impossible => nomatch impossible
  case h_3 decision held there => exact sound_hook sound there decision inTime
  case h_4 held there => exact sound_free sound
  case h_5 answer held split read there => exact sound_chat sound there answer inTime
  case h_6 => exact sound

def Attached : CompressTask -> Prop
  | .scheduled => True
  | .hook held => held = none
  | .chat held _ read => held = none ∧ read.trimmed = false

structure Untrimmed (session : Session) : Prop where
  view : session.view.trimmed = false
  task : ∀ task, session.task = some task -> Attached task

theorem untrimmed_add (untrimmed : Untrimmed session) (message : LLMMessage) (loop : Bool)
    (roomy : Roomy memory session (.add message loop)) :
    Untrimmed (session.add memory message loop) := by
  have counted : (session.view.add message).messages.length = session.view.messages.length + 1 :=
    List.length_append
  unfold add
  dsimp only
  split
  · refine ⟨untrimmed.view, fun task created => ?_⟩
    cases loop with
    | false => cases created
    | true =>
      cases created
      trivial
  case isFalse stays =>
    rw [if_neg]
    · exact ⟨untrimmed.view, untrimmed.task⟩
    · intro full
      rw [counted] at full stays
      exact stays (roomy (Nat.le_of_lt_succ full))

theorem untrimmed_hook (untrimmed : Untrimmed session) {decision : Decision}
    (unpatched : ∀ patch, decision ≠ .modify (some patch)) :
    Untrimmed (match session.afterHook memory none decision with
      | .inl view => session.write view
      | .inr task => { session with task := some task }) := by
  have split : Untrimmed (match afterHook.compress memory none session.view with
      | .inl view => session.write view
      | .inr task => { session with task := some task }) := by
    unfold afterHook.compress
    cases splitHistory memory.keepRecent session.view.messages with
    | none => exact ⟨untrimmed.view, fun _ impossible => nomatch impossible⟩
    | some split =>
      refine ⟨untrimmed.view, fun task created => ?_⟩
      cases created
      exact ⟨rfl, untrimmed.view⟩
  cases decision with
  | block => exact ⟨untrimmed.view, fun _ impossible => nomatch impossible⟩
  | proceed => exact split
  | modify patch =>
    cases patch with
    | none => exact split
    | some messages => exact absurd rfl (unpatched messages)

theorem untrimmed_step (untrimmed : Untrimmed session) (input : SessionInput)
    (lossless : Lossless memory session input) : Untrimmed (session.step memory input) := by
  rcases lossless with ⟨inTime, roomy⟩
  unfold step
  split
  case h_1 message loop => exact untrimmed_add untrimmed message loop roomy
  case h_2 there =>
    split
    · exact ⟨untrimmed.view, fun _ impossible => nomatch impossible⟩
    · refine ⟨untrimmed.view, fun task same => ?_⟩
      cases same
      rfl
  case h_3 decision held there =>
    cases untrimmed.task _ there
    unfold InTime at inTime
    rw [there] at inTime
    exact untrimmed_hook untrimmed inTime.1
  case h_4 => exact ⟨untrimmed.view, fun _ impossible => nomatch impossible⟩
  case h_5 answer held split read there =>
    rcases untrimmed.task _ there with ⟨rfl, unread⟩
    unfold Roomy at roomy
    rw [there] at roomy
    refine ⟨?_, fun _ impossible => nomatch impossible⟩
    unfold write afterAnswer
    cases given : answer.summary with
    | some summary => exact unread
    | none =>
      have recent : lastOf (memory.keepRecent * 2) session.view.messages = session.view.messages :=
        roomy given
      unfold View.trim
      dsimp only [Option.getD_none]
      rw [recent, untrimmed.view, bne_self_eq_false, Bool.false_or]
  case h_6 => exact untrimmed

/-- In every run in which each returned list takes in all messages added so far and no
fallback cuts any off, no message is lost when no compression is under way. -/
theorem messages_complete (memory : WorkingMemory) (inputs : List SessionInput)
    (lossless : (machine memory).EveryStep (Lossless memory) inputs) :
    (machine memory).EveryState Complete inputs := by
  have sound := (machine memory).guarded_everyState (fun session => Sound session ∧ Untrimmed session)
    (Lossless memory) ⟨⟨faithful_initial, fun _ impossible => nomatch impossible⟩, rfl,
      fun _ impossible => nomatch impossible⟩
    (fun _ input holds lossless => ⟨sound_step holds.1 input lossless.1,
      untrimmed_step holds.2 input lossless⟩) inputs lossless
  intro before rest split _
  exact (sound before rest split).1.faithful.whole (sound before rest split).2.view

def said (text : String) : LLMMessage := { role := .user, content := some text }

def small : WorkingMemory :=
  { maxMessages := 5, compressThreshold := 2, keepRecent := 1, provider := true }

/-- The first message is summarized, and then another one is added. -/
def compressedInTime : List SessionInput :=
  [.add (said "one") true, .add (said "two") true, .begin, .hook .proceed,
    .chat (.answered (some "one")), .add (said "three") true]

/-- The provider fails, but both messages are recent; then another one is added. -/
def failedInTime : List SessionInput :=
  [.add (said "one") true, .add (said "two") true, .begin, .hook .proceed, .chat .raised,
    .add (said "three") true]

theorem messages_compressedInTime : (machine small).EveryState Complete compressedInTime ∧
    (machine small).EveryState Complete failedInTime := by
  refine ⟨messages_complete small compressedInTime ?_, messages_complete small failedInTime ?_⟩
  · rw [Machine.everyStep_iff_stepsFrom]
    exact ⟨⟨trivial, nofun⟩, ⟨trivial, nofun⟩, ⟨trivial, trivial⟩, ⟨⟨nofun, nofun⟩, trivial⟩,
      ⟨rfl, nofun⟩, ⟨trivial, nofun⟩, trivial⟩
  · rw [Machine.everyStep_iff_stepsFrom]
    exact ⟨⟨trivial, nofun⟩, ⟨trivial, nofun⟩, ⟨trivial, trivial⟩, ⟨⟨nofun, nofun⟩, trivial⟩,
      ⟨rfl, fun _ => rfl⟩, ⟨trivial, nofun⟩, trivial⟩

theorem whole_length (whole : Whole view) :
    view.upTo.length + 1 = view.summarised.length + view.messages.length ∨
      (view.summarised = [] ∧ view.upTo.length = view.messages.length) := by
  rcases whole with ⟨covered, later, head, now, log, messages, old, kept, summary⟩
  have before := old.length_eq
  have after := kept.length_eq
  have total := congrArg List.length log
  have parts := congrArg List.length messages
  simp only [List.length_append] at total parts
  rcases summary with ⟨empty, summarised⟩ | ⟨message, one, _⟩
  · rw [summarised, List.length_nil] at before
    rw [empty, List.length_nil] at parts
    exact .inr ⟨summarised, by omega⟩
  · rw [one, List.length_singleton] at parts
    exact .inl (by omega)

def addedMeanwhile : List SessionInput :=
  [.add (said "one") true, .add (said "two") true, .begin, .hook .proceed,
    .add (said "three") true, .chat (.answered (some "one"))]

theorem message_lost : Not (∀ (memory : WorkingMemory) (inputs : List SessionInput),
      (machine memory).EveryState Complete inputs) := by
  intro claim
  have whole := claim small addedMeanwhile addedMeanwhile [] (List.append_nil _).symm rfl
  rcases whole_length whole with lengths | lengths
  · exact absurd lengths (by decide)
  · cases lengths.1

end Session

end Memory
end BreadMind
