import BreadMind.Memory.WorkingMemory

namespace BreadMind
namespace Memory

open Execution

/-!
# How much a session holds

Adding a message cuts the list at `max_messages`, but not when it starts a
compression; then the task has to bring the list under the limit.  A task that
ends without a new list leaves the session as long as it is.
-/

/-- The last message is the newest one, with its tool result cut any number of times. -/
def NewestKept (view : View) : Prop :=
  ∀ newest, view.upTo.getLast? = some newest ->
    ∃ last, view.messages.getLast? = some last ∧ Cut newest last

/-- Behind at most one summary stand the messages added last, in the order in
which they were added. -/
def InOrder (view : View) : Prop :=
  ∃ earlier kept head now,
    view.upTo = earlier ++ kept ∧ view.messages = head ++ now ∧ Kept kept now ∧
      (head = [] ∨ ∃ summary, head = [summary] ∧ isSummary summary = true)

theorem Faithful.inOrder {view : View} (faithful : Faithful view) : InOrder view := by
  rcases faithful with ⟨gone, covered, later, head, now, log, messages, _, kept, summary, _⟩
  refine ⟨gone ++ covered, later, head, now, log, messages, kept, ?_⟩
  rcases summary with ⟨none_, _⟩ | ⟨message, one, summaryOf⟩
  · exact .inl none_
  · exact .inr ⟨message, one, summaryOf.recognised⟩

section Newest

variable {view : View}

theorem getLast_lastOf {Item : Type} (count : Nat) (items : List Item) :
    (lastOf count items).getLast? = items.getLast? := by
  unfold lastOf
  split
  · rfl
  case isFalse some_ =>
    rw [List.getLast?_drop]
    split
    case isTrue nothing =>
      have empty : items = [] := List.eq_nil_of_length_eq_zero (by omega)
      rw [empty]
      rfl
    case isFalse => rfl

theorem length_lastOf {Item : Type} {count : Nat} (some_ : count ≠ 0) (items : List Item) :
    (lastOf count items).length = min count items.length := by
  unfold lastOf
  rw [if_neg some_, List.length_drop]
  omega

theorem newestKept_add (view : View) (message : LLMMessage) : NewestKept (view.add message) := by
  intro newest last
  have same : message = newest := by
    change (view.upTo ++ [message]).getLast? = some newest at last
    rw [List.getLast?_append] at last
    exact Option.some.inj last
  refine ⟨message, ?_, same ▸ Cut.refl message⟩
  change (view.messages ++ [message]).getLast? = some message
  rw [List.getLast?_append]
  rfl

theorem newestKept_trim (fresh : NewestKept view) (count : Nat) : NewestKept (view.trim count) := by
  intro newest added
  rcases fresh newest added with ⟨last, there, cut⟩
  refine ⟨truncateToolResult last, ?_, cut.truncate⟩
  change (truncateToolResults (lastOf count view.messages)).getLast? = _
  unfold truncateToolResults
  rw [List.getLast?_map, getLast_lastOf, there]
  rfl

theorem recent_ne_nil {keepRecent : Nat} {messages : List LLMMessage} {split : Split}
    (splits : splitHistory keepRecent messages = some split) :
    keepRecent ≠ 0 ∧ split.recent.length = keepRecent := by
  rcases splitHistory_some splits with ⟨parts, some_, recent, _⟩
  have positive := List.length_pos_iff.2 some_
  have total := congrArg List.length parts
  simp only [List.length_append] at total
  have needed : keepRecent ≠ 0 := by
    intro none_
    rw [recent, none_, lastOf, if_pos rfl] at total
    omega
  refine ⟨needed, ?_⟩
  rw [recent, length_lastOf needed] at total ⊢
  omega

theorem newestKept_summarise (fresh : NewestKept view) {keepRecent : Nat} {split : Split}
    (splits : splitHistory keepRecent view.messages = some split) (text : String) :
    NewestKept (view.summarise split text) := by
  intro newest added
  rcases fresh newest added with ⟨last, there, cut⟩
  refine ⟨last, ?_, cut⟩
  have recent := (splitHistory_some splits).2.2.1
  have some_ := recent_ne_nil splits
  have end_ : split.recent.getLast? = some last := by
    rw [recent, getLast_lastOf, there]
  change (summaryMessage split text :: split.recent).getLast? = some last
  rw [List.getLast?_cons, end_]
  rfl

end Newest

namespace Session

/-! ## The bound -/

/-- Once no compression is under way, the session holds at most `max_messages`;
the newest message is there and the messages are in order at every time. -/
structure Bounded (memory : WorkingMemory) (session : Session) : Prop where
  size : session.task = none -> session.view.messages.length ≤ memory.maxMessages
  newest : NewestKept session.view
  order : InOrder session.view

/-- The hook leaves the messages as they are: it blocks, or there is nothing to
summarize. -/
def Leaves (memory : WorkingMemory) (decision : Decision) (own : View) : Prop :=
  decision = .block ∨ splitHistory memory.keepRecent own.messages = none

/-- What a step has to meet, read before the step.  A message which starts a
compression without a loop finds room.  No hook replaces the messages.  A task
that ends without a summary has a list of at most `max_messages`; a list that
is put in the place of the messages has been read after the last message was
added, and what is kept of it fits. -/
def Fits (memory : WorkingMemory) (session : Session) (input : SessionInput) : Prop :=
  match input, session.task with
  | .add _ loop, none =>
    loop = false -> memory.provider = true ->
      memory.compressThreshold ≤ session.view.messages.length + 1 ->
      session.view.messages.length + 1 ≤ memory.maxMessages
  | .hook decision, some (.hook held) =>
    (∀ patch, decision ≠ .modify (some patch)) ∧
      (Leaves memory decision (held.getD session.view) ->
        (held.getD session.view).upTo = session.view.upTo ∧
          (held.getD session.view).messages.length ≤ memory.maxMessages)
  | .hookRaised, some (.hook _) => session.view.messages.length ≤ memory.maxMessages
  | .chat answer, some (.chat held _ read) =>
    match answer.summary with
    | some _ => read.upTo = session.view.upTo ∧ memory.keepRecent + 1 ≤ memory.maxMessages
    | none => (held.getD session.view).upTo = session.view.upTo ∧
        min (memory.keepRecent * 2) (held.getD session.view).messages.length ≤ memory.maxMessages
  | _, _ => True

variable {memory : WorkingMemory} {session : Session}

theorem Fits.inTime {input : SessionInput} (fits : Fits memory session input) :
    InTime memory session input := by
  unfold Fits at fits
  unfold InTime
  split
  case h_1 decision held there =>
    rw [there] at fits
    rcases fits with ⟨unpatched, stays⟩
    refine ⟨unpatched, fun view result => ?_⟩
    have same : view = held.getD session.view ∧ Leaves memory decision (held.getD session.view) := by
      have whole : afterHook.compress memory held (held.getD session.view) = .inl view ->
          view = held.getD session.view ∧ Leaves memory decision (held.getD session.view) := by
        unfold afterHook.compress
        cases splits : splitHistory memory.keepRecent (held.getD session.view).messages with
        | none =>
          intro returned
          cases returned
          exact ⟨rfl, .inr splits⟩
        | some split => exact fun returned => nomatch returned
      cases decision with
      | block =>
        cases result
        exact ⟨rfl, .inl rfl⟩
      | proceed => exact whole result
      | modify patch =>
        cases patch with
        | none => exact whole result
        | some messages => exact absurd rfl (unpatched messages)
    rw [same.1]
    exact (stays same.2).1
  case h_2 answer held split read there =>
    rw [there] at fits
    simp only at fits
    unfold afterAnswer
    cases summary : answer.summary with
    | some text | none =>
      rw [summary] at fits
      exact fits.1
  case h_3 => trivial

def Ready (memory : WorkingMemory) (session : Session) : CompressTask -> Prop
  | .scheduled => memory.compressThreshold ≤ session.view.messages.length ∨
      session.view.messages.length ≤ memory.maxMessages
  | .hook held => ∀ view, held = some view -> NewestKept view
  | .chat held split read => (∀ view, held = some view -> NewestKept view) ∧ NewestKept read ∧
      splitHistory memory.keepRecent read.messages = some split

structure Held (memory : WorkingMemory) (session : Session) : Prop where
  sound : Sound session
  newest : NewestKept session.view
  idle : session.task = none -> session.view.messages.length ≤ memory.maxMessages
  ready : ∀ task, session.task = some task -> Ready memory session task

variable {held : Option View}

theorem newest_held (newest : NewestKept session.view)
    (holds : ∀ own, held = some own -> NewestKept own) : NewestKept (held.getD session.view) := by
  cases held with
  | none => exact newest
  | some own => exact holds own rfl

theorem length_trim {count : Nat} (some_ : count ≠ 0) (view : View) :
    (view.trim count).messages.length = min count view.messages.length := by
  unfold View.trim truncateToolResults
  rw [List.length_map, length_lastOf some_]

theorem Ready.detach {task : CompressTask} (ready : Ready memory session task) {view : View}
    (newest : NewestKept view) {later : Session}
    (short : later.view.messages.length ≤ memory.maxMessages) :
    Ready memory later (task.detach view) := by
  have own : ∀ held : Option View, (∀ view, held = some view -> NewestKept view) ->
      ∀ other, some (held.getD view) = some other -> NewestKept other := by
    intro held holds other same
    cases same
    cases held with
    | none => exact newest
    | some own => exact holds own rfl
  cases task with
  | scheduled => exact .inr short
  | hook held => exact own held ready
  | chat held split read => exact ⟨own held ready.1, ready.2⟩

theorem Ready.grow {task : CompressTask} (ready : Ready memory session task) {later : Session}
    (short : later.view.messages.length ≤ memory.maxMessages) : Ready memory later task := by
  cases task with
  | scheduled => exact .inr short
  | hook held => exact ready
  | chat held split read => exact ready

theorem held_add (positive : memory.maxMessages ≠ 0) (holds : Held memory session)
    (message : LLMMessage) (loop : Bool) (fits : Fits memory session (.add message loop)) :
    Held memory (session.add memory message loop) := by
  have sound : Sound (session.add memory message loop) := sound_add holds.sound message loop
  have newest := newestKept_add session.view message
  have longer : (session.view.add message).messages.length = session.view.messages.length + 1 :=
    List.length_append
  unfold add at sound ⊢
  simp only at sound ⊢
  split at sound
  case isTrue starts =>
    rw [if_pos starts]
    refine ⟨sound, newest, fun idle => ?_, fun task created => ?_⟩
    · have free := Option.isNone_iff_eq_none.1 starts.2.2
      unfold Fits at fits
      rw [free] at fits
      cases loop with
      | true => cases idle
      | false => exact longer ▸ fits rfl starts.2.1 (longer ▸ starts.1)
    · cases loop with
      | false => cases created
      | true =>
        cases created
        exact .inl starts.1
  case isFalse goesOn =>
    rw [if_neg goesOn]
    split at sound
    case isTrue many =>
      rw [if_pos many]
      have short := Nat.le_trans (Nat.le_of_eq (length_trim positive (session.view.add message)))
        (Nat.min_le_left _ _)
      refine ⟨sound, newestKept_trim newest _, fun _ => short, fun task detached => ?_⟩
      rcases Option.map_eq_some_iff.1 detached with ⟨before, there, rfl⟩
      exact (holds.ready before there).detach newest short
    case isFalse few =>
      rw [if_neg few]
      have short : (session.view.add message).messages.length ≤ memory.maxMessages := by omega
      exact ⟨sound, newest, fun _ => short, fun task there => (holds.ready task there).grow short⟩

theorem held_free (holds : Held memory session)
    (short : session.view.messages.length ≤ memory.maxMessages) :
    Held memory { session with task := none } :=
  ⟨sound_free holds.sound, holds.newest, fun _ => short, fun _ impossible => nomatch impossible⟩

theorem held_write {own : View} (sound : Sound (session.write own)) (newest : NewestKept own)
    (inTime : own.upTo = session.view.upTo) (short : own.messages.length ≤ memory.maxMessages) :
    Held memory (session.write own) := by
  refine ⟨sound, ?_, fun _ => short, fun _ impossible => nomatch impossible⟩
  unfold write
  rw [← inTime]
  exact newest

theorem held_begin (holds : Held memory session) (there : session.task = some .scheduled) :
    Held memory (session.step memory .begin) := by
  have sound : Sound (session.step memory .begin) := sound_step holds.sound .begin trivial
  unfold step at sound ⊢
  rw [there] at sound ⊢
  simp only at sound ⊢
  split at sound
  case isTrue few =>
    rw [if_pos few]
    refine held_free holds ?_
    have ready : memory.compressThreshold ≤ _ ∨ _ := holds.ready .scheduled there
    omega
  case isFalse enough =>
    rw [if_neg enough]
    refine ⟨sound, holds.newest, nofun, fun task same => ?_⟩
    cases same
    exact nofun

theorem held_hook (holds : Held memory session)
    (there : session.task = some (.hook held)) (decision : Decision)
    (fits : Fits memory session (.hook decision)) :
    Held memory (session.step memory (.hook decision)) := by
  obtain ⟨view, task⟩ := session
  change task = _ at there
  subst there
  have sound := sound_step holds.sound (.hook decision) (Fits.inTime fits)
  have ready : ∀ view, held = some view -> NewestKept view := holds.ready _ rfl
  have own := newest_held holds.newest ready
  rcases fits with ⟨unpatched, stays⟩
  have stay : Leaves memory decision (held.getD view) ->
      Sound (write ⟨view, some (.hook held)⟩ (held.getD view)) ->
      Held memory (write ⟨view, some (.hook held)⟩ (held.getD view)) := fun leaves sound =>
    held_write sound own (stays leaves).1 (stays leaves).2
  have whole : Sound (step memory ⟨view, some (.hook held)⟩ (.hook .proceed)) ->
      Held memory (step memory ⟨view, some (.hook held)⟩ (.hook .proceed)) := by
    unfold step afterHook afterHook.compress
    dsimp only
    cases splits : splitHistory memory.keepRecent (held.getD view).messages with
    | none => exact stay (.inr splits)
    | some split =>
      intro sound
      refine ⟨sound, holds.newest, nofun, fun task same => ?_⟩
      cases same
      exact ⟨ready, own, splits⟩
  cases decision with
  | block => exact stay (.inl rfl) sound
  | proceed => exact whole sound
  | modify patch =>
    cases patch with
    | none => exact whole sound
    | some messages => exact absurd rfl (unpatched messages)

theorem held_chat (holds : Held memory session) {split : Split} {read : View}
    (there : session.task = some (.chat held split read)) (answer : Chat)
    (fits : Fits memory session (.chat answer)) :
    Held memory (session.step memory (.chat answer)) := by
  have sound := sound_step holds.sound (.chat answer) (Fits.inTime fits)
  have ready : (∀ view, held = some view -> NewestKept view) ∧ NewestKept read ∧
      splitHistory memory.keepRecent read.messages = some split := holds.ready _ there
  rcases recent_ne_nil ready.2.2 with ⟨some_, recent⟩
  unfold Fits at fits
  unfold step afterAnswer at sound ⊢
  rw [there] at fits sound ⊢
  cases summary : answer.summary with
  | some text =>
    simp only [summary] at fits sound ⊢
    refine held_write sound (newestKept_summarise ready.2.1 ready.2.2 text) fits.1 ?_
    change split.recent.length + 1 ≤ memory.maxMessages
    rw [recent]
    exact fits.2
  | none =>
    simp only [summary] at fits sound ⊢
    refine held_write sound (newestKept_trim (newest_held holds.newest ready.1) _) fits.1 ?_
    rw [length_trim (by omega)]
    exact fits.2

theorem held_step (positive : memory.maxMessages ≠ 0) (holds : Held memory session)
    (input : SessionInput) (fits : Fits memory session input) :
    Held memory (session.step memory input) := by
  match input, there : session.task with
  | .add message loop, _ => exact held_add positive holds message loop fits
  | .begin, some .scheduled => exact held_begin holds there
  | .hook decision, some (.hook held) => exact held_hook holds there decision fits
  | .chat answer, some (.chat held split read) => exact held_chat holds there answer fits
  | .hookRaised, some (.hook held) =>
    unfold Fits at fits
    unfold step
    rw [there] at fits ⊢
    exact held_free holds fits
  | .begin, none | .begin, some (.hook _) | .begin, some (.chat _ _ _)
  | .hook _, none | .hook _, some .scheduled | .hook _, some (.chat _ _ _)
  | .chat _, none | .chat _, some .scheduled | .chat _, some (.hook _)
  | .hookRaised, none | .hookRaised, some .scheduled | .hookRaised, some (.chat _ _ _) =>
    unfold step
    rw [there]
    exact holds

/-- In every run whose steps fit, the session is bounded, keeps the newest
message and keeps the messages in their order. -/
theorem session_bounded (memory : WorkingMemory) (positive : memory.maxMessages ≠ 0)
    (inputs : List SessionInput) (fits : (machine memory).EveryStep (Fits memory) inputs) :
    (machine memory).EveryState (Bounded memory) inputs := by
  have held := (machine memory).guarded_everyState (Held memory) (Fits memory)
    ⟨⟨faithful_initial, fun _ impossible => nomatch impossible⟩, nofun, fun _ => Nat.zero_le _,
      fun _ impossible => nomatch impossible⟩
    (fun _ input holds fits => held_step positive holds input fits) inputs fits
  intro before rest split
  have reached := held before rest split
  exact ⟨reached.idle, reached.newest, reached.sound.faithful.inOrder⟩

theorem session_bounded_compressed :
    (machine small).EveryState (Bounded small) compressedInTime := by
  refine session_bounded small (by decide) compressedInTime ?_
  rw [Machine.everyStep_iff_stepsFrom]
  exact ⟨nofun, nofun, trivial, ⟨nofun, fun _ => ⟨rfl, by decide⟩⟩, ⟨rfl, by decide⟩, nofun, trivial⟩

def blocked : List SessionInput :=
  [.add (said "one") true, .add (said "two") true, .begin, .hook .block,
    .add (said "three") true, .begin, .hook .block, .add (said "four") true, .begin, .hook .block,
    .add (said "five") true, .begin, .hook .block, .add (said "six") true, .begin, .hook .block]

theorem session_unbounded : Not (∀ (memory : WorkingMemory) (inputs : List SessionInput),
      memory.maxMessages ≠ 0 -> (machine memory).EveryState (Bounded memory) inputs) := by
  intro claim
  have bounded := (claim small blocked (by decide) blocked [] (List.append_nil _).symm).size rfl
  exact absurd bounded (by decide)

end Session
end Memory
end BreadMind
