import BreadMind.AgentLoop.AutoCompact

namespace BreadMind
namespace AgentLoop
namespace AutoCompactor

open Execution
open Memory

/-!
# What a compaction keeps

The passes of a compaction leave the system message, a summary at most, and a
part of the conversation that ends with its end.  What is missing can then be
read off the place of the cut: a tool message behind it whose call lies before
it, and an instruction text that was not cut away and is inserted again.
-/

def Shortened (message now : LLMMessage) : Prop :=
  now = message ∨ message.role = .tool ∧ now.role = .tool ∧ now.toolCallId = message.toolCallId ∧
    now.name = message.name

theorem trimToolResult_shortened (previewSize : Nat) (message : LLMMessage) :
    Shortened message (trimToolResult previewSize message) := by
  unfold trimToolResult
  split
  case isTrue tool => exact .inr ⟨tool.1, tool.1, rfl, rfl⟩
  case isFalse => exact .inl rfl

variable {message now : LLMMessage}

theorem Shortened.clear (shortened : Shortened message now) :
    Shortened message (clearToolResult now) := by
  unfold clearToolResult
  split
  case isTrue tool =>
    rcases shortened with rfl | ⟨role, _, answers, name⟩
    · exact .inr ⟨tool, tool, rfl, rfl⟩
    · exact .inr ⟨role, tool, answers, name⟩
  case isFalse => exact shortened

theorem Shortened.sameExchange (shortened : Shortened message now) : SameExchange message now := by
  rcases shortened with rfl | ⟨role, tool, answers, _⟩
  · exact ⟨rfl, fun _ => rfl, fun _ => rfl⟩
  · refine ⟨tool.trans role.symm, fun _ => answers, fun assistant => ?_⟩
    rw [role] at assistant
    cases assistant

theorem Shortened.system (shortened : Shortened message now)
    (system : message.role = .system) : now = message := by
  rcases shortened with same | ⟨role, _⟩
  · exact same
  · rw [system] at role
    cases role

/-! ## Instruction texts in a conversation -/

def isInstruction (text : String) (message : LLMMessage) : Bool :=
  message.role = .system && message.content = some text

/-- How often the text of an instruction file stands in the conversation. -/
def occurrences (text : String) (messages : List LLMMessage) : Nat :=
  messages.countP (isInstruction text)

theorem occurrences_append (text : String) (first second : List LLMMessage) :
    occurrences text (first ++ second) = occurrences text first + occurrences text second :=
  List.countP_append

theorem occurrences_cons (text : String) (message : LLMMessage) (rest : List LLMMessage) :
    occurrences text (message :: rest) = occurrences text [message] + occurrences text rest :=
  occurrences_append text [message] rest

variable {messages : List LLMMessage}

theorem occurrences_shortened {now : List LLMMessage}
    (shortened : List.Forall₂ Shortened messages now) (text : String) :
    occurrences text now = occurrences text messages := by
  induction shortened with
  | nil => rfl
  | @cons message now rest later pair _ ih =>
    have same : isInstruction text now = isInstruction text message := by
      rcases pair with rfl | ⟨role, tool, _⟩
      · rfl
      · unfold isInstruction
        rw [role, tool]
        rfl
    unfold occurrences at ih ⊢
    rw [List.countP_cons, List.countP_cons, same, ih]

theorem occurrences_instructions (text : String) (texts : List String) :
    occurrences text (texts.map instructionMessage) = texts.count text := by
  unfold occurrences
  rw [List.countP_map]
  refine List.countP_congr fun other _ => ?_
  unfold isInstruction instructionMessage
  simp only [Function.comp_apply, decide_true, Bool.true_and, decide_eq_true_eq, Option.some.injEq,
    beq_iff_eq]

def summaryLabels : List String :=
  ["[Previous conversation summary] ", "[Aggressively compacted summary] "]

def IsSummaryMessage (message : LLMMessage) : Prop :=
  ∃ label text, label ∈ summaryLabels ∧
    message = { role := .system, content := some (label ++ text) }

variable {read : String -> Option String} {path text : String}

theorem instructionText_head
    (there : instructionText read path = some text) : text.toList[1]? = some 'I' := by
  unfold instructionText at there
  split at there
  · cases there
  · split at there
    · cases there
    · cases there
      rw [String.append_assoc, String.append_assoc, String.toList_append]
      rfl

theorem occurrences_summary (there : instructionText read path = some text)
    (summary : IsSummaryMessage message) : occurrences text [message] = 0 := by
  rcases summary with ⟨label, written, among, rfl⟩
  have different : label ++ written ≠ text := by
    rintro rfl
    have head := instructionText_head there
    rw [String.toList_append] at head
    simp only [summaryLabels, List.mem_cons, List.not_mem_nil, or_false] at among
    rcases among with rfl | rfl
    · exact absurd head (by simp)
    · exact absurd head (by simp)
  unfold occurrences isInstruction
  rw [List.countP_cons_of_neg]
  · rfl
  · simp only [decide_true, Bool.true_and, decide_eq_true_eq, Option.some.injEq]
    exact different

theorem occurrences_summaries
    (there : instructionText read path = some text) {summaries : List LLMMessage}
    (every : ∀ message ∈ summaries, IsSummaryMessage message) : occurrences text summaries = 0 := by
  induction summaries with
  | nil => rfl
  | cons message rest ih =>
    rw [occurrences_cons, occurrences_summary there (every message List.mem_cons_self),
      ih fun other member => every other (List.mem_cons_of_mem _ member)]

/-! ## The passes on a conversation under a system message -/

theorem snipOldResults_append {keep : Nat} {old recent : List LLMMessage}
    (exactly : recent.length = keep) :
    snipOldResults keep (old ++ recent) = old.map clearToolResult ++ recent := by
  unfold snipOldResults
  split
  case isTrue few =>
    rw [List.length_append, exactly] at few
    have nothing : old = [] := List.eq_nil_of_length_eq_zero (by omega)
    rw [nothing]
    rfl
  case isFalse =>
    have boundary : (old ++ recent).length - keep = old.length := by
      rw [List.length_append, exactly, Nat.add_sub_cancel]
    rw [boundary]
    refine List.mapIdx_eq_iff.2 fun index => ?_
    by_cases before : index < old.length
    · rw [List.getElem?_append_left (by rwa [List.length_map]), List.getElem?_map,
        List.getElem?_append_left before]
      simp only [if_pos before]
    · have behind : old.length ≤ index := Nat.le_of_not_lt before
      rw [List.getElem?_append_right (by rwa [List.length_map]), List.length_map,
        List.getElem?_append_right behind]
      simp only [if_neg before, Option.map_id']

section Passes

variable {system : LLMMessage} (head : system.role = .system)

include head in
theorem systemMessage_cons (rest : List LLMMessage) :
    systemMessage true (system :: rest) = some system := by
  unfold systemMessage
  rw [if_pos rfl, List.head?_cons, Option.filter_some, if_pos (decide_eq_true head)]

def condensed (system : LLMMessage) (keep : Nat) (label : String)
    (summary : List LLMMessage -> Option String) (rest : List LLMMessage) :
    Option (List LLMMessage) :=
  if rest.length ≤ keep then some (system :: rest)
  else
    (summary (rest.take (rest.length - keep))).map fun text =>
      system :: { role := .system, content := some (label ++ text) } ::
        rest.drop (rest.length - keep)

include head in
theorem summarizeAllBut_cons {keep : Nat} (keeps : keep ≠ 0) (label : String)
    (summary : List LLMMessage -> Option String) {rest : List LLMMessage}
    (more : Not (rest.length ≤ keep)) : summarizeAllBut keep label true summary (system :: rest) =
      condensed system keep label summary rest := by
  have place : (system :: rest).length - keep = rest.length - keep + 1 := by
    rw [List.length_cons]
    omega
  have enough : 1 + keep < (system :: rest).length := by
    rw [List.length_cons]
    omega
  have some_ : rest.take (rest.length - keep) ≠ [] := by
    rw [Ne, List.take_eq_nil_iff]
    rintro (none_ | empty)
    · omega
    · rw [empty] at more
      exact more (Nat.zero_le keep)
  unfold summarizeAllBut condensed
  rw [if_neg more, systemMessage_cons head]
  simp only [Option.toList_some, List.length_singleton, if_pos enough, butLast, lastOf, if_neg keeps,
    place, List.take_succ_cons, List.drop_succ_cons, List.drop_zero, List.isEmpty_iff, if_neg some_]
  cases summary (rest.take (rest.length - keep)) with
  | none => rfl
  | some text => rfl

include head in
theorem summarizeOld_cons {keep : Nat} (keeps : keep ≠ 0) (summary : List LLMMessage -> Option String)
    (rest : List LLMMessage) : summarizeOld keep true summary (system :: rest) =
      condensed system keep "[Previous conversation summary] " summary rest := by
  unfold summarizeOld
  rw [List.length_cons]
  by_cases few : rest.length ≤ keep
  · rw [if_pos (Nat.succ_le_succ few), condensed, if_pos few]
  · rw [if_neg (by omega), summarizeAllBut_cons head keeps _ _ few]

include head in
theorem aggressiveCompact_cons (summary : List LLMMessage -> Option String) (rest : List LLMMessage) :
    aggressiveCompact true summary (system :: rest) =
      condensed system 4 "[Aggressively compacted summary] " summary rest := by
  unfold aggressiveCompact
  rw [systemMessage_cons head, List.length_cons, Option.toList_some, List.length_singleton]
  by_cases few : rest.length ≤ 4
  · rw [if_pos (by omega), condensed, if_pos few]
  · rw [if_neg (by omega), summarizeAllBut_cons head (by decide) _ _ few]

end Passes

namespace Compactor

variable (compactor : Compactor) (call : Call)

def keepOf (level : CompactionLevel) : Nat :=
  if level = .aggressiveCompact then min 4 compactor.config.keepRecent
  else compactor.config.keepRecent

variable {compactor call} {system : LLMMessage} {rest : List LLMMessage}

def newest (compactor : Compactor) (keep : Nat) (rest : List LLMMessage) : List LLMMessage :=
  (rest.drop (rest.length - keep)).map (trimToolResult compactor.config.toolResultPreviewSize)

theorem length_newest (keep : Nat) :
    (compactor.newest keep rest).length = rest.length - (rest.length - keep) := by
  unfold newest
  rw [List.length_map, List.length_drop]

theorem drop_newest (keep count : Nat) :
    (compactor.newest keep rest).drop ((compactor.newest keep rest).length - count) =
      compactor.newest (min count keep) rest := by
  have place : rest.length - keep + (rest.length - (rest.length - keep) - count) =
      rest.length - min count keep := by omega
  rw [length_newest]
  unfold newest
  rw [← List.map_drop, List.drop_drop, place]

theorem shortened_cons (head : system.role = .system) {level : CompactionLevel}
    (some_ : level ≠ .none) : ∃ older,
      List.Forall₂ Shortened (rest.take (rest.length - compactor.config.keepRecent)) older ∧
        compactor.shortened level (system :: rest) =
          system :: (older ++ compactor.newest compactor.config.keepRecent rest) := by
  have apart : ∀ message, Not (message.role = .tool) -> clearToolResult message = message := by
    intro message other
    unfold clearToolResult
    rw [if_neg other]
  have other : Not (system.role = .tool) := by
    rw [head]
    exact nofun
  have untouched : trimToolResult compactor.config.toolResultPreviewSize system = system := by
    unfold trimToolResult
    rw [if_neg fun both => other both.1]
  have positive : 1 ≤ level.value := by
    cases level with
    | none => exact absurd rfl some_
    | toolResultTrim | snipOldResults | summarizeOld | aggressiveCompact => decide
  have whole : (system :: rest).map (trimToolResult compactor.config.toolResultPreviewSize) =
      system :: ((rest.take (rest.length - compactor.config.keepRecent)).map
        (trimToolResult compactor.config.toolResultPreviewSize) ++
        compactor.newest compactor.config.keepRecent rest) := by
    rw [newest, List.map_cons, untouched, ← List.map_append, List.take_append_drop]
  unfold Compactor.shortened
  rw [if_pos positive, whole]
  split
  · by_cases many : compactor.config.keepRecent ≤ rest.length
    · rw [← List.cons_append, snipOldResults_append, List.map_cons, apart system other,
        List.cons_append]
      · refine ⟨_, ?_, rfl⟩
        rw [List.map_map]
        refine List.forall₂_map_right_iff.2 (List.forall₂_same.2 fun message _ => ?_)
        exact (trimToolResult_shortened _ message).clear
      · rw [length_newest]
        omega
    · have nothing : rest.length - compactor.config.keepRecent = 0 := by omega
      rw [nothing]
      refine ⟨[], List.Forall₂.nil, ?_⟩
      have size := @length_newest compactor rest compactor.config.keepRecent
      unfold snipOldResults
      rw [if_pos]
      · rfl
      · change (compactor.newest compactor.config.keepRecent rest).length + 1 ≤ _
        omega
  · refine ⟨_, ?_, rfl⟩
    refine List.forall₂_map_right_iff.2 (List.forall₂_same.2 fun message _ => ?_)
    exact trimToolResult_shortened _ message

/-- What the passes make of the messages under the system message: a summary at
most, what is left of the older ones, and the newest ones. -/
structure Passed (compactor : Compactor) (level : CompactionLevel) (system : LLMMessage)
    (rest : List LLMMessage) (result summaries older : List LLMMessage) : Prop where
  shape : result = system :: (summaries ++ (older ++ compactor.newest (compactor.keepOf level) rest))
  written : ∀ message ∈ summaries, IsSummaryMessage message
  few : summaries.length ≤ 1
  kept : if level.value ≤ 2 then
    List.Forall₂ Shortened (rest.take (rest.length - compactor.keepOf level)) older else older = []

variable {level : CompactionLevel}

theorem passed_shortened (head : system.role = .system)
    (some_ : level ≠ .none) (low : level.value ≤ 2) : ∃ older, Passed compactor level system rest
      (compactor.shortened level (system :: rest)) [] older := by
  rcases @shortened_cons compactor system rest head level some_ with ⟨older, shortened, shape⟩
  have keeps : compactor.keepOf level = compactor.config.keepRecent := by
    unfold keepOf
    rw [if_neg]
    rintro rfl
    exact absurd low (by decide)
  refine ⟨older, ?_, nofun, Nat.zero_le 1, ?_⟩
  · rw [keeps, List.nil_append]
    exact shape
  · rw [if_pos low, keeps]
    exact shortened

variable {summary : List LLMMessage -> Option String} {result : List LLMMessage}

theorem condensed_some {keep : Nat} {label : String} {front newest : List LLMMessage}
    (enough : (front ++ newest).length ≤ keep ∨ keep ≤ newest.length)
    (passed : condensed system keep label summary (front ++ newest) = some result) :
    ((front ++ newest).length ≤ keep ∧ result = system :: (front ++ newest)) ∨
      ∃ text, result = system ::
        { role := .system, content := some (label ++ text) } :: newest.drop (newest.length - keep) := by
  unfold condensed at passed
  split at passed
  case isTrue few => exact .inl ⟨few, (Option.some.inj passed).symm⟩
  case isFalse many =>
    have long : keep ≤ newest.length := enough.resolve_left many
    rcases Option.map_eq_some_iff.1 passed with ⟨text, _, rfl⟩
    refine .inr ⟨text, ?_⟩
    rw [List.length_append, Nat.add_sub_assoc long, List.drop_length_add_append]

theorem passed_old (head : system.role = .system) (keeps : compactor.config.keepRecent ≠ 0)
    (some_ : level ≠ .none) (passed : summarizeOld compactor.config.keepRecent true summary
      (compactor.shortened level (system :: rest)) = some result) :
    ∃ summaries, Passed compactor .summarizeOld system rest result summaries [] := by
  rcases @shortened_cons compactor system rest head level some_ with ⟨older, shortened, shape⟩
  have size := shortened.length_eq
  rw [List.length_take] at size
  rw [shape, summarizeOld_cons head keeps] at passed
  have recent := @length_newest compactor rest compactor.config.keepRecent
  have enough : (older ++ compactor.newest compactor.config.keepRecent rest).length ≤
      compactor.config.keepRecent ∨ compactor.config.keepRecent ≤
        (compactor.newest compactor.config.keepRecent rest).length := by
    rw [List.length_append, recent]
    omega
  rcases condensed_some enough passed with ⟨few, same⟩ | ⟨text, same⟩
  · have nothing : older = [] := by
      rw [List.length_append, recent] at few
      exact List.eq_nil_of_length_eq_zero (by omega)
    refine ⟨[], ?_, nofun, Nat.zero_le 1, rfl⟩
    rw [same, nothing]
    rfl
  · refine ⟨[{ role := .system, content := some ("[Previous conversation summary] " ++ text) }], ?_,
      fun message member => ?_, Nat.le_refl 1, rfl⟩
    · rw [same, drop_newest, Nat.min_self]
      rfl
    · rw [List.mem_singleton.1 member]
      exact ⟨_, text, List.mem_cons_self, rfl⟩

variable {summaries : List LLMMessage}

theorem passed_aggressive (head : system.role = .system) {before : List LLMMessage}
    (earlier : Passed compactor .summarizeOld system rest before summaries [])
    (passed : aggressiveCompact true summary before = some result) :
    ∃ summaries, Passed compactor .aggressiveCompact system rest result summaries [] := by
  have shape := earlier.shape
  rw [List.nil_append] at shape
  have keep : compactor.keepOf .summarizeOld = compactor.config.keepRecent := rfl
  have keep' : compactor.keepOf .aggressiveCompact = min 4 compactor.config.keepRecent := rfl
  rw [shape, keep, aggressiveCompact_cons head] at passed
  have recent := @length_newest compactor rest compactor.config.keepRecent
  have few := earlier.few
  have enough : (summaries ++ compactor.newest compactor.config.keepRecent rest).length ≤ 4 ∨
      4 ≤ (compactor.newest compactor.config.keepRecent rest).length := by
    rw [List.length_append]
    omega
  rcases condensed_some enough passed with ⟨short, same⟩ | ⟨text, same⟩
  · refine ⟨summaries, ?_, earlier.written, few, rfl⟩
    have place : rest.length - min 4 compactor.config.keepRecent =
        rest.length - compactor.config.keepRecent := by
      rw [List.length_append, recent] at short
      omega
    rw [same, keep', List.nil_append, newest, newest, place]
  · refine ⟨[{ role := .system, content := some ("[Aggressively compacted summary] " ++ text) }], ?_,
      fun message member => ?_, Nat.le_refl 1, rfl⟩
    · rw [same, drop_newest]
      rfl
    · rw [List.mem_singleton.1 member]
      exact ⟨_, text, List.mem_cons_of_mem _ List.mem_cons_self, rfl⟩

theorem passes_old (messages : List LLMMessage) : compactor.passes call .summarizeOld messages =
      summarizeOld compactor.config.keepRecent compactor.config.preserveSystem
        (compactor.summary call .summarizeOld) (compactor.shortened .summarizeOld messages) := by
  change (summarizeOld _ _ _ _).bind some = _
  exact Option.bind_fun_some _

theorem passes_aggressive (messages : List LLMMessage) :
    compactor.passes call .aggressiveCompact messages =
      (summarizeOld compactor.config.keepRecent compactor.config.preserveSystem
        (compactor.summary call .summarizeOld)
        (compactor.shortened .aggressiveCompact messages)).bind
          (aggressiveCompact compactor.config.preserveSystem
            (compactor.summary call .aggressiveCompact)) :=
  rfl

theorem passes_some (head : system.role = .system) (preserves : compactor.config.preserveSystem = true)
    (keeps : compactor.config.keepRecent ≠ 0) (some_ : level ≠ .none)
    (passed : compactor.passes call level (system :: rest) = some result) : ∃ summaries older,
      Passed compactor level system rest result summaries older := by
  cases level with
  | none => exact absurd rfl some_
  | toolResultTrim | snipOldResults =>
    cases passed
    exact ⟨[], passed_shortened head some_ (by decide)⟩
  | summarizeOld =>
    rw [passes_old, preserves] at passed
    rcases passed_old head keeps some_ passed with ⟨summaries, holds⟩
    exact ⟨summaries, [], holds⟩
  | aggressiveCompact =>
    rw [passes_aggressive, preserves] at passed
    rcases Option.bind_eq_some_iff.1 passed with ⟨middle, old, last⟩
    rcases passed_old head keeps some_ old with ⟨summaries, holds⟩
    rcases passed_aggressive head holds last with ⟨later, done⟩
    exact ⟨later, [], done⟩

/-! ## Where the model raises -/

variable {messages : List LLMMessage}

theorem summarize_eq_none {instructions : Option String} {chat : List LLMMessage -> Chat} :
    summarize instructions chat messages = none <->
      chat (summaryPrompt instructions messages) = .raised := by
  unfold summarize
  cases chat (summaryPrompt instructions messages) with
  | raised => exact iff_of_true rfl rfl
  | answered content => exact iff_of_false nofun nofun

/-- What a summarizing level asks the model to summarize. -/
def asked (keep : Nat) (messages : List LLMMessage) : List LLMMessage :=
  (butLast keep messages).drop 1

theorem condensed_eq_none {keep : Nat} (keeps : keep ≠ 0) {label : String}
    {instructions : Option String} {chat : List LLMMessage -> Chat} {rest : List LLMMessage} :
    condensed system keep label (summarize instructions chat) rest = none <-> keep < rest.length ∧
        chat (summaryPrompt instructions (asked keep (system :: rest))) = .raised := by
  unfold condensed
  split
  case isTrue few => exact iff_of_false nofun fun both => absurd both.1 (Nat.not_lt_of_le few)
  case isFalse many =>
    have more : keep < rest.length := Nat.lt_of_not_le many
    have place : (system :: rest).length - keep = rest.length - keep + 1 := by
      rw [List.length_cons]
      omega
    rw [Option.map_eq_none_iff, summarize_eq_none, asked, butLast, if_neg keeps, place,
      List.take_succ_cons, List.drop_succ_cons, List.drop_zero]
    exact (and_iff_right more).symm

variable (compactor call) in
/-- The model is asked for a summary of old messages, at level 3 or again at
level 4, and raises. -/
def Raises (level : CompactionLevel) (messages : List LLMMessage) : Prop :=
  3 ≤ level.value ∧
    ((compactor.config.keepRecent + 1 < messages.length ∧
        call.chat .summarizeOld (summaryPrompt compactor.compactInstructions
          (asked compactor.config.keepRecent (compactor.shortened level messages))) = .raised) ∨
      4 ≤ level.value ∧ ∃ after,
        summarizeOld compactor.config.keepRecent compactor.config.preserveSystem
            (compactor.summary call .summarizeOld) (compactor.shortened level messages) = some after ∧
          5 < after.length ∧
          call.chat .aggressiveCompact (summaryPrompt compactor.compactInstructions
            (asked 4 after)) = .raised)

theorem summarizeOld_eq_none (head : system.role = .system)
    (preserves : compactor.config.preserveSystem = true) (keeps : compactor.config.keepRecent ≠ 0)
    {level : CompactionLevel} (some_ : level ≠ .none) :
    summarizeOld compactor.config.keepRecent compactor.config.preserveSystem
        (compactor.summary call .summarizeOld) (compactor.shortened level (system :: rest)) = none <->
      compactor.config.keepRecent + 1 < (system :: rest).length ∧
        call.chat .summarizeOld (summaryPrompt compactor.compactInstructions
          (asked compactor.config.keepRecent (compactor.shortened level (system :: rest)))) =
            .raised := by
  rcases @shortened_cons compactor system rest head level some_ with ⟨older, shortened, shape⟩
  have size := shortened.length_eq
  rw [List.length_take] at size
  have recent := @length_newest compactor rest compactor.config.keepRecent
  have total : (older ++ compactor.newest compactor.config.keepRecent rest).length = rest.length := by
    rw [List.length_append]
    omega
  rw [shape, preserves, summarizeOld_cons head keeps, summary, condensed_eq_none keeps, total,
    List.length_cons, Nat.add_lt_add_iff_right]

theorem passes_eq_none (head : system.role = .system)
    (preserves : compactor.config.preserveSystem = true) (keeps : compactor.config.keepRecent ≠ 0)
    (some_ : level ≠ .none) : compactor.passes call level (system :: rest) = none <->
      compactor.Raises call level (system :: rest) := by
  have old := @summarizeOld_eq_none compactor call system rest head preserves keeps level some_
  unfold Raises
  rw [← old]
  cases level with
  | none => exact absurd rfl some_
  | toolResultTrim => exact iff_of_false nofun fun raises => absurd raises.1 (by decide)
  | snipOldResults => exact iff_of_false nofun fun raises => absurd raises.1 (by decide)
  | summarizeOld =>
    rw [passes_old]
    refine ⟨fun stops => ⟨by decide, .inl stops⟩, ?_⟩
    rintro ⟨_, stops | ⟨high, _⟩⟩
    · exact stops
    · exact absurd high (by decide)
  | aggressiveCompact =>
    rw [passes_aggressive]
    cases first : summarizeOld compactor.config.keepRecent compactor.config.preserveSystem
        (compactor.summary call .summarizeOld)
        (compactor.shortened .aggressiveCompact (system :: rest)) with
    | none => exact iff_of_true rfl ⟨by decide, .inl rfl⟩
    | some after =>
      rw [preserves] at first
      rcases passed_old head keeps some_ first with ⟨summaries, holds⟩
      have shape := holds.shape
      rw [Option.bind_some, preserves, shape, aggressiveCompact_cons head, summary,
        condensed_eq_none (by decide)]
      constructor
      · rintro ⟨many, stops⟩
        exact ⟨by decide, .inr ⟨by decide, _, rfl, Nat.succ_lt_succ many, stops⟩⟩
      · rintro ⟨_, nothing | ⟨_, _, same, many, stops⟩⟩
        · cases nothing
        · cases same
          exact ⟨Nat.lt_of_succ_lt_succ many, stops⟩

variable (compactor call)

def texts : List String :=
  instructionTexts compactor.instructionFiles call.read

/-- The first message behind the system message which a level keeps. -/
def cutAt (level : CompactionLevel) (messages : List LLMMessage) : Nat :=
  if level.value ≤ 2 then 1 else max 1 (messages.length - compactor.keepOf level)

def left (level : CompactionLevel) (messages : List LLMMessage) : List LLMMessage :=
  messages.take 1 ++ messages.drop (compactor.cutAt level messages)

def Trimmed (message now : LLMMessage) : Prop :=
  now = message ∨ now = trimToolResult compactor.config.toolResultPreviewSize message

/-- What a compaction is to keep: the system message, the newest messages in
their order, the call of every tool message, and each instruction text once. -/
structure Compacted (messages result : List LLMMessage) : Prop where
  system : result.head? = messages.head?
  newest : ∃ front tail, result = front ++ tail ∧
    List.Forall₂ compactor.Trimmed (messages.drop (messages.length -
      min (compactor.keepOf (compactor.level call messages)) (messages.length - 1))) tail
  called : AllCalled messages -> AllCalled result
  instructions : ∀ text ∈ compactor.texts call, occurrences text result = 1

/-- Nothing is compacted: the level asks for nothing, or the model raises. -/
def Idle (messages : List LLMMessage) : Prop :=
  compactor.level call messages = .none ∨
    compactor.Raises call (compactor.level call messages) messages

/-- The condition, read before the compaction.  Where nothing is compacted each
instruction text is there once already.  Elsewhere no exchange stands across
the cut, and no instruction text is kept or inserted twice. -/
def Spared (messages : List LLMMessage) : Prop :=
  let level := compactor.level call messages
  (compactor.Idle call messages -> ∀ text ∈ compactor.texts call, occurrences text messages = 1) ∧
    (Not (compactor.Idle call messages) ->
      (AllCalled messages -> Not (StraddlesAt (compactor.cutAt level messages) messages)) ∧
        ∀ text ∈ compactor.texts call, (compactor.texts call).count text = 1 ∧
          occurrences text (compactor.left level messages) = 0)

variable {compactor call}

theorem compact_unchanged (head : system.role = .system)
    (preserves : compactor.config.preserveSystem = true) (keeps : compactor.config.keepRecent ≠ 0)
    (idle : compactor.Idle call (system :: rest)) :
    compactor.compact call (system :: rest) = system :: rest := by
  unfold compact
  by_cases nothing : compactor.level call (system :: rest) = .none
  · simp only [if_pos nothing]
  · have stops := (passes_eq_none head preserves keeps nothing).2 (idle.resolve_left nothing)
    simp only [if_neg nothing, stops]

theorem compact_through (head : system.role = .system)
    (preserves : compactor.config.preserveSystem = true) (keeps : compactor.config.keepRecent ≠ 0)
    (works : Not (compactor.Idle call (system :: rest))) : ∃ result summaries older,
      Passed compactor (compactor.level call (system :: rest)) system rest result summaries older ∧
        compactor.compact call (system :: rest) = system ::
          ((compactor.texts call).map instructionMessage ++ (summaries ++ (older ++
            compactor.newest (compactor.keepOf (compactor.level call (system :: rest))) rest))) := by
  rcases not_or.1 works with ⟨some_, answers⟩
  cases passed : compactor.passes call (compactor.level call (system :: rest)) (system :: rest) with
  | none => exact absurd ((passes_eq_none head preserves keeps some_).1 passed) answers
  | some result =>
    rcases passes_some head preserves keeps some_ passed with ⟨summaries, older, holds⟩
    refine ⟨result, summaries, older, holds, ?_⟩
    unfold compact
    simp only [if_neg some_, passed]
    rw [holds.shape]
    unfold insertInstructions
    simp only [List.isEmpty_cons, Bool.false_eq_true, if_false, List.head?_cons, Option.any_some, head,
      decide_true, if_true, List.take_succ_cons, List.take_zero, List.drop_succ_cons, List.drop_zero]
    rfl

theorem kept_shortened {older : List LLMMessage}
    (passed : Passed compactor level system rest result summaries older) :
    List.Forall₂ Shortened ((system :: rest).drop (compactor.cutAt level (system :: rest)))
      (older ++ compactor.newest (compactor.keepOf level) rest) := by
  have trimmed : List.Forall₂ Shortened (rest.drop (rest.length - compactor.keepOf level))
      (compactor.newest (compactor.keepOf level) rest) :=
    List.forall₂_map_right_iff.2 (List.forall₂_same.2 fun message _ =>
      trimToolResult_shortened _ message)
  have kept := passed.kept
  unfold cutAt
  split
  case isTrue low =>
    rw [if_pos low] at kept
    have whole : List.Forall₂ Shortened (rest.take (rest.length - compactor.keepOf level) ++
        rest.drop (rest.length - compactor.keepOf level))
        (older ++ compactor.newest (compactor.keepOf level) rest) := List.rel_append kept trimmed
    rwa [List.take_append_drop] at whole
  case isFalse high =>
    rw [if_neg high] at kept
    have place : max 1 ((system :: rest).length - compactor.keepOf level) =
        rest.length - compactor.keepOf level + 1 := by
      rw [List.length_cons]
      omega
    rw [kept, place]
    exact trimmed

theorem sameExchange_symm {message now : LLMMessage} (same : SameExchange message now) :
    SameExchange now message :=
  ⟨same.1.symm, fun tool => (same.2.1 (same.1.symm.trans tool)).symm,
    fun assistant => (same.2.2 (same.1.symm.trans assistant)).symm⟩

theorem allCalled_kept_iff {front now : List LLMMessage}
    (front_ : ∀ message ∈ front, message.role = .system)
    (shortened : List.Forall₂ Shortened messages now) :
    AllCalled (front ++ now) <-> AllCalled messages := by
  have same := shortened.imp fun _ _ pair => pair.sameExchange
  rw [allCalled_front front_]
  exact ⟨allCalled_sameExchange (same.imp fun _ _ => sameExchange_symm).flip,
    allCalled_sameExchange same⟩

theorem newest_trimmed (keep : Nat) :
    List.Forall₂ compactor.Trimmed ((system :: rest).drop ((system :: rest).length -
      min keep ((system :: rest).length - 1))) (compactor.newest keep rest) := by
  have place : (system :: rest).length - min keep ((system :: rest).length - 1) =
      rest.length - keep + 1 := by
    rw [List.length_cons]
    omega
  rw [place]
  exact List.forall₂_map_right_iff.2 (List.forall₂_same.2 fun message _ => .inr rfl)

theorem compacted_unchanged (once : ∀ text ∈ compactor.texts call, occurrences text messages = 1) :
    Compacted compactor call messages messages := by
  have same : List.Forall₂ compactor.Trimmed (messages.drop (messages.length -
      min (compactor.keepOf (compactor.level call messages)) (messages.length - 1)))
      (messages.drop (messages.length -
        min (compactor.keepOf (compactor.level call messages)) (messages.length - 1))) :=
    List.forall₂_same.2 fun message _ => .inl rfl
  exact ⟨rfl, ⟨_, _, (List.take_append_drop _ messages).symm, same⟩, fun called => called, once⟩

theorem occurrences_compact {older : List LLMMessage}
    (passed : Passed compactor level system rest result summaries older) {text : String}
    (among : text ∈ compactor.texts call) :
    occurrences text (system :: ((compactor.texts call).map instructionMessage ++ (summaries ++
        (older ++ compactor.newest (compactor.keepOf level) rest)))) =
      (compactor.texts call).count text + occurrences text (compactor.left level (system :: rest)) := by
  rcases List.mem_filterMap.1 among with ⟨path, _, there⟩
  have kept := occurrences_shortened (kept_shortened passed) text
  unfold left
  rw [occurrences_cons, occurrences_append, occurrences_append, kept, occurrences_instructions,
    occurrences_summaries there passed.written, occurrences_append, List.take_succ_cons,
    List.take_zero]
  omega

theorem compacted_iff (head : system.role = .system)
    (preserves : compactor.config.preserveSystem = true) (keeps : compactor.config.keepRecent ≠ 0) :
    Compacted compactor call (system :: rest) (compactor.compact call (system :: rest)) <->
      compactor.Spared call (system :: rest) := by
  by_cases idle : compactor.Idle call (system :: rest)
  · rw [compact_unchanged head preserves keeps idle]
    refine ⟨fun compacted => ⟨fun _ => compacted.instructions, fun works => absurd idle works⟩, ?_⟩
    exact fun spared => compacted_unchanged (spared.1 idle)
  · rcases compact_through head preserves keeps idle with ⟨result, summaries, older, passed, same⟩
    have shortened := kept_shortened passed
    have front : ∀ message,
        message ∈ system :: ((compactor.texts call).map instructionMessage ++ summaries) ->
          message.role = .system := by
      intro message member
      rcases List.mem_cons.1 member with rfl | inserted
      · exact head
      · rcases List.mem_append.1 inserted with instruction | summary
        · rcases List.mem_map.1 instruction with ⟨_, _, rfl⟩
          rfl
        · rcases passed.written message summary with ⟨_, _, _, rfl⟩
          rfl
    have exchange : AllCalled (system :: rest) ->
        (AllCalled (compactor.compact call (system :: rest)) <->
          Not (StraddlesAt (compactor.cutAt (compactor.level call (system :: rest))
            (system :: rest)) (system :: rest))) := by
      intro called
      have parts := allCalled_kept_iff front shortened
      rw [List.cons_append, List.append_assoc] at parts
      rw [same, parts]
      rw [← List.take_append_drop (compactor.cutAt (compactor.level call (system :: rest))
        (system :: rest)) (system :: rest)] at called
      exact allCalled_kept called
    have times : ∀ text ∈ compactor.texts call,
        (occurrences text (compactor.compact call (system :: rest)) = 1 <->
          (compactor.texts call).count text = 1 ∧ occurrences text
            (compactor.left (compactor.level call (system :: rest)) (system :: rest)) = 0) := by
      intro text among
      have total := occurrences_compact passed among
      have some_ := List.count_pos_iff.2 among
      rw [same]
      omega
    constructor
    · intro compacted
      refine ⟨fun works => absurd works idle, fun _ => ⟨fun called => ?_, fun text among => ?_⟩⟩
      · exact (exchange called).1 (compacted.called called)
      · exact (times text among).1 (compacted.instructions text among)
    · intro spared
      rcases spared.2 idle with ⟨apart, once⟩
      refine ⟨?_, ⟨system :: ((compactor.texts call).map instructionMessage ++ (summaries ++ older)), _,
        ?_, newest_trimmed _⟩, fun called => (exchange called).2 (apart called),
        fun text among => (times text among).2 (once text among)⟩
      · rw [same]
        rfl
      · rw [same, List.cons_append, List.append_assoc, List.append_assoc]

end Compactor

/-! ## Compactions one after the other -/

inductive Turn where
  | append (message : LLMMessage)
  | compact (call : Call)

variable (compactor : Compactor)

def conversation (start : List LLMMessage) : Machine (List LLMMessage) Turn where
  initial := start
  step := fun messages turn =>
    match turn with
    | .append message => messages ++ [message]
    | .compact call => compactor.compact call messages

/-- Every compaction keeps what it is to keep. -/
def Keeps (messages : List LLMMessage) : Turn -> Prop
  | .append _ => True
  | .compact call => Compactor.Compacted compactor call messages (compactor.compact call messages)

def Spares (messages : List LLMMessage) : Turn -> Prop
  | .append _ => True
  | .compact call => compactor.Spared call messages

/-- Over any number of compactions, with messages appended in between. -/
theorem compactions_iff (compactor : Compactor) (preserves : compactor.config.preserveSystem = true)
    (keeps : compactor.config.keepRecent ≠ 0) (system : LLMMessage) (head : system.role = .system)
    (rest : List LLMMessage) (turns : List Turn) :
    (conversation compactor (system :: rest)).EveryStep (Keeps compactor) turns <->
      (conversation compactor (system :: rest)).EveryStep (Spares compactor) turns := by
  refine (conversation compactor (system :: rest)).everyStep_iff_everyStep
    (fun messages => ∃ rest, messages = system :: rest) ⟨rest, rfl⟩ ?_ ?_ turns
  · rintro messages turn ⟨rest, rfl⟩ spares
    cases turn with
    | append message => exact ⟨rest ++ [message], rfl⟩
    | compact call =>
      have compacted := (Compactor.compacted_iff head preserves keeps).2 spares
      exact List.head?_eq_some_iff.1 compacted.system
  · rintro messages turn ⟨rest, rfl⟩
    cases turn with
    | append message => exact Iff.rfl
    | compact call => exact Compactor.compacted_iff head preserves keeps

def instructed : Compactor := { instructionFiles := ["docs/AGENTS.md"] }

def briefly (level : CompactionLevel) : Call :=
  { forceLevel := some level
    chat := fun _ _ => .answered (some "They said hello.")
    read := fun _ => some "Be brief.\n" }

def greeting : List LLMMessage := [{ role := .user, content := some "Hello." }]

def onlySystem : LLMMessage := { role := .system, content := some "You help." }

theorem briefly_works {compactor : Compactor} {level : CompactionLevel}
    (some_ : level ≠ .none) : Not (compactor.Idle (briefly level) messages) := by
  rintro (nothing | ⟨_, ⟨_, raised⟩ | ⟨_, _, _, _, raised⟩⟩)
  · exact some_ nothing
  · cases raised
  · cases raised

theorem not_straddlesAt_quiet {count : Nat}
    (quiet : (messages.all fun message => message.toolCalls.isEmpty) = true) :
    Not (StraddlesAt count messages) := by
  rintro ⟨_, _, _, _, _, _, _, ⟨message, member, _, made, among, _⟩, _⟩
  have empty := List.all_eq_true.1 quiet message (List.mem_of_mem_take member)
  rw [List.isEmpty_iff.1 empty] at among
  cases among

/-- The instruction text is cut away with the old messages and inserted again. -/
theorem compactions_summarized :
    (conversation { instructed with config := { keepRecent := 1 } } (onlySystem :: greeting)).EveryStep
      (Keeps { instructed with config := { keepRecent := 1 } })
      [.compact (briefly .summarizeOld), .append { role := .assistant, content := some "Hi." },
        .compact (briefly .summarizeOld)] := by
  refine (compactions_iff { instructed with config := { keepRecent := 1 } } rfl (by decide) onlySystem
    rfl greeting _).2 ?_
  rw [Machine.everyStep_iff_stepsFrom]
  refine ⟨⟨fun idle => absurd idle (briefly_works nofun), fun _ => ⟨fun _ => ?_, by decide⟩⟩, trivial,
    ⟨fun idle => absurd idle (briefly_works nofun), fun _ => ⟨fun _ => ?_, by decide⟩⟩, trivial⟩
  · exact not_straddlesAt_quiet (by decide)
  · exact not_straddlesAt_quiet (by decide)

/-- Trimming large results cuts nothing away, so the text is inserted twice. -/
theorem compactions_repeat :
    Not (∀ (compactor : Compactor), compactor.config.preserveSystem = true ->
      compactor.config.keepRecent ≠ 0 -> ∀ system, system.role = .system ->
      ∀ rest turns, AllCalled (system :: rest) ->
        (conversation compactor (system :: rest)).EveryStep (Keeps compactor) turns) := by
  intro claim
  have plain : ∀ message ∈ onlySystem :: greeting, message.role ≠ .tool := by decide
  have every := claim instructed rfl (by decide) onlySystem rfl greeting
    [.compact (briefly .toolResultTrim), .compact (briefly .toolResultTrim)] (by
      intro before message after split tool
      refine absurd tool (plain message ?_)
      rw [split]
      exact List.mem_append_right before List.mem_cons_self)
  rw [Machine.everyStep_iff_stepsFrom] at every
  have once := every.2.1.instructions "[Instruction file: AGENTS.md]\nBe brief." (by decide)
  exact absurd once (by decide)

end AutoCompactor
end AgentLoop
end BreadMind
