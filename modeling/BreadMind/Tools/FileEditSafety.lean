import BreadMind.Tools.FileEdit

namespace BreadMind
namespace Tools
namespace FileEdit

open Text

/-!
# Which edits are right

An edit that is carried out writes the text with its line ends translated, so it
is right only for a text without carriage returns.
-/

section Bytes

variable {word first other : List CodePoint} {others : List (List CodePoint)}

theorem bytesOf_rejoin : bytesOf (rejoin word first others) =
    rejoin (bytesOf word) (bytesOf first) (others.map bytesOf) := by
  induction others generalizing first with
  | nil => simp only [rejoin, List.flatMap_nil, List.append_nil, List.map_nil]
  | cons gap rest ih =>
    rw [rejoin_cons, bytesOf_append, bytesOf_append, ih, List.map_cons, rejoin_cons]

theorem writable_rejoin : Writable (rejoin word first others) <->
    Writable first ∧ ∀ gap ∈ others, Writable word ∧ Writable gap := by
  unfold rejoin
  rw [writable_append]
  refine and_congr_right fun _ => ?_
  unfold Writable
  simp only [List.mem_flatMap, List.mem_append]
  constructor
  · intro every gap member
    exact ⟨fun point inside => every point ⟨gap, member, .inl inside⟩,
      fun point inside => every point ⟨gap, member, .inr inside⟩⟩
  · rintro every point ⟨gap, member, inside⟩
    exact inside.elim ((every gap member).1 point) ((every gap member).2 point)

theorem writable_rejoin_of (whole : Writable (rejoin word first others))
    (writable : Writable other) : Writable (rejoin other first others) := by
  rw [writable_rejoin] at whole ⊢
  exact ⟨whole.1, fun gap member => ⟨writable, (whole.2 gap member).2⟩⟩

theorem count_eq_zero_of_same {point : CodePoint} {first' : List CodePoint}
    {others' : List (List CodePoint)} (same : rejoin other first others = rejoin other first' others')
    (length : others.length = others'.length) (some' : others ≠ [])
    (free : (rejoin word first' others').count point = 0) :
    (rejoin word first others).count point = 0 := by
  have counts := congrArg (List.count point) same
  have positive : 0 < others'.length := length ▸ List.length_pos_of_ne_nil some'
  rw [count_rejoin, count_rejoin, length] at counts
  rw [count_rejoin] at free ⊢
  rw [length]
  omega

end Bytes

theorem toString_injective {first second : Nat} (same : toString first = toString second) :
    first = second := by
  have digits := congrArg String.toList same
  rw [Nat.toString_eq_repr, Nat.toString_eq_repr, Nat.toList_repr, Nat.toList_repr] at digits
  have values := congrArg (fun letters => Nat.ofDigitChars 10 letters 0) digits
  simpa only [Nat.ofDigitChars_ten_toDigits] using values

namespace EditRequest

variable {request : EditRequest} {session : Session} {reading : Reading} {writing : Writing}
variable {bytes : List UInt8} {text : List Char}

theorem edited_injective {first second : Nat} (same : request.edited first = request.edited second) :
    first = second := by
  unfold edited at same
  rw [String.append_left_inj] at same
  exact toString_injective (String.append_right_inj _ |>.mp same)

theorem edited_ne_error (count : Nat) (rest : String) : request.edited count ≠ "Error" ++ rest := by
  intro same
  unfold edited at same
  have heads := congrArg List.head? (congrArg String.toList same)
  simp only [String.toList_append, List.head?_append] at heads
  simp at heads

theorem refused_ok (rest : String) (reading : Reading) :
    Refused reading (.ok ("Error" ++ rest), reading) :=
  ⟨⟨rest, rfl⟩, rfl⟩

theorem edit_unattempted {content : List CodePoint} (unattempted : Not (request.Attempted content)) :
    Refused reading (request.edit reading writing content) := by
  unfold edit
  split
  case isTrue => exact refused_ok _ reading
  case isFalse different =>
    dsimp only
    split
    case isTrue => exact refused_ok _ reading
    case isFalse found =>
      split
      case isTrue => exact refused_ok _ reading
      case isFalse notAmbiguous =>
        refine absurd ⟨different, found, fun single => ?_⟩ unattempted
        have few : Not (1 < occurrences request.oldString content) := fun many =>
          notAmbiguous ⟨single, many⟩
        omega

theorem edit_attempted {content : List CodePoint} (attempted : request.Attempted content) :
    request.edit reading writing content =
      request.writeBack reading writing (occurrences request.oldString content)
        (replaceEvery request.oldString request.newString content) := by
  rcases attempted with ⟨different, found, single⟩
  unfold edit
  rw [if_neg different]
  dsimp only
  rw [if_neg found, if_neg fun ambiguous => by have one := single ambiguous.1; omega]
  split
  case isTrue => rfl
  case isFalse notAll =>
    have one := single (Bool.eq_false_iff.mpr notAll)
    rw [replaceFirst_of_one _ one, one]

theorem attempted_of_due (due : request.Due text) : request.Attempted (scalars text) := by
  refine ⟨due.different, ?_, fun single => ?_⟩
  · cases all : request.replaceAll with
    | true => exact fun zero => occurrences_eq_zero_iff.mp zero (due.every all)
    | false =>
      rcases due.once all with ⟨before, after, once⟩
      rw [occurrences_of_once once]
      exact Nat.one_ne_zero
  · rcases due.once single with ⟨before, after, once⟩
    exact occurrences_of_once once

/-! ## Texts that are edited -/

theorem writable_written (attempted : request.Attempted (scalars (universal text))) :
    Writable (replaceEvery request.oldString request.newString (scalars (universal text))) <->
      Writable request.newString := by
  have cut := cut_gaps request.oldString (scalars (universal text))
  have whole : Writable (rejoin request.oldString _ _) :=
    cut.joined ▸ writable_scalars (universal text)
  constructor
  · intro written
    have some' : (gaps request.oldString (scalars (universal text))).2 ≠ [] :=
      fun none' => attempted.2.1 (congrArg List.length none')
    rcases List.exists_mem_of_ne_nil _ some' with ⟨gap, member⟩
    exact ((writable_rejoin.mp written).2 gap member).1
  · exact writable_rejoin_of whole

theorem joined_of_parts {first : List CodePoint} {others : List (List CodePoint)}
    (parts : request.Parts text first others) :
    rejoin request.oldString first others = scalars text := by
  cases all : request.replaceAll with
  | true => exact (parts.1 all).joined
  | false =>
    rcases parts.2 all with ⟨after, rfl, once⟩
    rw [once.split, rejoin_cons]
    simp only [rejoin, List.flatMap_nil, List.append_nil]

theorem parts_of_due (due : request.Due text) :
    request.Parts text (gaps request.oldString (scalars text)).1
      (gaps request.oldString (scalars text)).2 := by
  refine ⟨fun _ => cut_gaps _ _, fun single => ?_⟩
  rcases due.once single with ⟨before, after, once⟩
  rw [gaps_of_once once]
  exact ⟨after, rfl, once⟩

theorem free_of_replaced {first : List CodePoint} {others : List (List CodePoint)}
    (attempted : request.Attempted (scalars (universal text)))
    (parts : request.Parts text first others) (writable : Writable request.newString)
    (length : others.length = occurrences request.oldString (scalars (universal text)))
    (same : bytesOf (replaceEvery request.oldString request.newString (scalars (universal text))) =
      rejoin (bytesOf request.newString) (bytesOf first) (others.map bytesOf)) : '\r' ∉ text := by
  have joined := joined_of_parts parts
  have whole : Writable (rejoin request.oldString first others) := joined ▸ writable_scalars text
  rw [← bytesOf_rejoin] at same
  have texts := bytesOf_injective ((writable_written attempted).mpr writable)
    (writable_rejoin_of whole writable) same
  have read := (cut_gaps request.oldString (scalars (universal text))).joined
  have free : (scalars (universal text)).count (.scalar '\r') = 0 := by
    refine List.count_eq_zero.mpr fun member => ?_
    rcases List.mem_map.mp member with ⟨letter, inside, same⟩
    cases same
    exact return_not_mem_universal text inside
  have some' : others ≠ [] := fun none' => attempted.2.1 (by rw [← length, none']; rfl)
  have none' := count_eq_zero_of_same texts.symm length some' (read ▸ free)
  rw [joined] at none'
  exact fun member => List.count_eq_zero.mp none' (List.mem_map_of_mem member)

theorem due_of_safe (attempted : request.Attempted (scalars (universal text)))
    (safe : request.WriteSafe bytes text .complete) : request.Due text := by
  rcases safe with ⟨writable, free, once⟩
  rw [universal_of_not_mem free] at attempted
  exact ⟨attempted.1, writable,
    fun _ => Classical.not_not.mp fun absent => attempted.2.1 (occurrences_eq_zero_iff.mpr absent), once⟩

theorem right_attempted (tracked : session.abspath request.filePath ∈ session.readFiles)
    (decoded : decode bytes = some text)
    (attempted : request.Attempted (scalars (universal text))) :
    request.Right session (.content bytes) writing
        (request.edit (.content bytes) writing (scalars (universal text))) <->
      request.WriteSafe bytes text writing := by
  rw [edit_attempted attempted]
  unfold writeBack
  cases writing with
  | refused message =>
    refine iff_of_true (.inr ⟨?_, refused_ok _ _⟩) trivial
    rintro ⟨_, _, editable⟩
    cases editable.writes
  | cut message remaining =>
    dsimp only
    unfold WriteSafe
    by_cases writable : Writable request.newString
    · rw [if_pos ((writable_written attempted).mpr writable)]
      constructor
      · rintro (⟨_, _, editable, _⟩ | ⟨_, refused⟩)
        · cases editable.writes
        · exact ⟨writable, Reading.content.inj refused.2⟩
      · rintro ⟨_, rfl⟩
        refine .inr ⟨?_, refused_ok _ _⟩
        rintro ⟨_, _, editable⟩
        cases editable.writes
    · rw [if_neg fun written => writable ((writable_written attempted).mp written)]
      refine iff_of_false ?_ fun safe => writable safe.1
      rintro (⟨_, _, editable, _⟩ | ⟨_, ⟨_, answered⟩, _⟩)
      · cases editable.writes
      · cases answered
  | complete =>
    dsimp only
    by_cases writable : Writable request.newString
    · rw [if_pos ((writable_written attempted).mpr writable)]
      constructor
      · rintro (⟨bytes', text', editable, first, others, parts, _, outcome⟩ | ⟨_, ⟨rest, answered⟩, _⟩)
        · cases editable.content
          cases decoded.symm.trans editable.decoded
          rw [Prod.mk.injEq, Except.ok.injEq, Reading.content.injEq] at outcome
          exact ⟨writable, free_of_replaced attempted parts writable
            (edited_injective outcome.1).symm outcome.2, editable.due.once⟩
        · exact absurd (Except.ok.inj answered) (edited_ne_error _ _)
      · intro safe
        have due := due_of_safe attempted safe
        refine .inl ⟨bytes, text, ⟨tracked, rfl, decoded, rfl, due⟩, _, _, parts_of_due due, ?_, ?_⟩
        · rw [← bytesOf_rejoin, (cut_gaps _ _).joined, bytesOf_scalars]
          exact (decode_eq_some_iff.mp decoded).symm
        · rw [universal_of_not_mem safe.2.1, ← bytesOf_rejoin]
          rfl
    · rw [if_neg fun written => writable ((writable_written attempted).mp written)]
      refine iff_of_false ?_ fun safe => writable safe.1
      rintro (⟨_, _, _, _, _, _, _, outcome⟩ | ⟨_, ⟨_, answered⟩, _⟩)
      · cases outcome
      · cases answered

theorem right_unattempted (tracked : session.abspath request.filePath ∈ session.readFiles)
    (decoded : decode bytes = some text)
    (unattempted : Not (request.Attempted (scalars (universal text)))) :
    request.Right session (.content bytes) writing
        (request.edit (.content bytes) writing (scalars (universal text))) <->
      ('\r' ∈ text -> writing = .complete -> Not (request.Due text)) := by
  have refused := @edit_unattempted _ (.content bytes) writing _ unattempted
  constructor
  · rintro (⟨_, _, _, first, others, _, _, outcome⟩ | ⟨notEditable, _⟩) _ writes due
    · rcases refused with ⟨⟨rest, answered⟩, _⟩
      rw [outcome] at answered
      exact edited_ne_error _ _ (Except.ok.inj answered)
    · exact notEditable ⟨bytes, text, tracked, rfl, decoded, writes, due⟩
  · intro notDue
    refine .inr ⟨?_, refused⟩
    rintro ⟨bytes', text', editable⟩
    cases editable.content
    cases decoded.symm.trans editable.decoded
    by_cases returns : '\r' ∈ text
    · exact notDue returns editable.writes editable.due
    · rw [universal_of_not_mem returns] at unattempted
      exact unattempted (attempted_of_due editable.due)

theorem fileEdit_content (tracked : session.abspath request.filePath ∈ session.readFiles)
    (decoded : decode bytes = some text) : request.fileEdit session (.content bytes) writing =
      request.edit (.content bytes) writing (scalars (universal text)) := by
  unfold fileEdit
  rw [if_neg (not_not.mpr tracked)]
  dsimp only
  rw [decoded]

/-- An edit replaces just what it should, or leaves the file with an error text, if
and only if it is safe. -/
theorem fileEdit_right_iff (request : EditRequest) (session : Session) (reading : Reading)
    (writing : Writing) :
    request.Right session reading writing (request.fileEdit session reading writing) <->
      request.Safe session reading writing := by
  unfold fileEdit Safe
  by_cases tracked : session.abspath request.filePath ∈ session.readFiles
  · rw [if_neg (not_not.mpr tracked)]
    cases reading with
    | refused message =>
      refine iff_of_true (.inr ⟨?_, refused_ok _ _⟩) fun _ => trivial
      rintro ⟨_, _, editable⟩
      cases editable.content
    | failed error =>
      refine iff_of_false ?_ fun safe => safe tracked
      rintro (⟨_, _, editable, _⟩ | ⟨_, ⟨_, answered⟩, _⟩)
      · cases editable.content
      · cases answered
    | content bytes =>
      dsimp only
      cases decoded : decode bytes with
      | none =>
        refine iff_of_false ?_ ?_
        · rintro (⟨_, _, editable, _⟩ | ⟨_, ⟨_, answered⟩, _⟩)
          · cases editable.content
            cases decoded.symm.trans editable.decoded
          · cases answered
        · intro safe
          rcases safe tracked with ⟨_, found, _⟩
          cases found
      | some text =>
        have safe : (session.abspath request.filePath ∈ session.readFiles -> ∃ text',
            some text = some text' ∧ request.TextSafe bytes text' writing) <->
              request.TextSafe bytes text writing := by
          constructor
          · intro safe
            rcases safe tracked with ⟨_, same, safe⟩
            cases same
            exact safe
          · exact fun safe _ => ⟨text, rfl, safe⟩
        rw [safe]
        unfold TextSafe
        by_cases attempted : request.Attempted (scalars (universal text))
        · rw [right_attempted tracked decoded attempted]
          exact ⟨fun safe => ⟨fun _ => safe, fun not' => absurd attempted not'⟩,
            fun safe => safe.1 attempted⟩
        · rw [right_unattempted tracked decoded attempted]
          exact ⟨fun safe => ⟨fun yes => absurd yes attempted, fun _ => safe⟩,
            fun safe => safe.2 attempted⟩
  · rw [if_pos tracked]
    refine iff_of_true (.inr ⟨?_, refused_ok _ _⟩) fun yes => absurd yes tracked
    rintro ⟨_, _, editable⟩
    exact tracked editable.tracked

def renameOne : EditRequest := ⟨"notes.txt", scalars "one".toList, scalars "two".toList, false⟩

/-- The edit of one line takes the carriage returns of all lines away. -/
theorem carriage_returns_lost : Not (renameOne.Right ⟨id, ["notes.txt"]⟩
      (.content (encodeLetters "one\r\nthree\r\n".toList)) .complete
      (renameOne.fileEdit ⟨id, ["notes.txt"]⟩
        (.content (encodeLetters "one\r\nthree\r\n".toList)) .complete)) := by
  have attempted : renameOne.Attempted (scalars (universal "one\r\nthree\r\n".toList)) :=
    ⟨by decide, by decide, fun _ => by decide⟩
  have tracked : renameOne.filePath ∈ ["notes.txt"] := List.mem_singleton_self _
  rw [fileEdit_content tracked (decode_eq_some_iff.mpr rfl),
    right_attempted tracked (decode_eq_some_iff.mpr rfl) attempted]
  exact fun safe => safe.2.1 (by decide)

end EditRequest
end FileEdit
end Tools
end BreadMind
