import BreadMind.Memory.TokenCounter

namespace BreadMind
namespace Memory
namespace TokenCounter

/-!
# What trimming keeps

Messages are dropped from the oldest on until the rest fits, but the last message
of all is never dropped.  The one which should stay is the last message of the
user, and what follows it has to stay with it.
-/

/-- The last message of the user with what follows it, or nothing. -/
def sinceLastUser : List LLMMessage -> List LLMMessage
  | [] => []
  | message :: rest =>
    if sinceLastUser rest = [] ∧ message.role = .user then message :: rest else sinceLastUser rest

variable (fits : List LLMMessage -> Bool) (messages : List LLMMessage)

/-- Messages that fit come back as they are.  Otherwise the system message at the start is followed by
the longest suffix that fits and has the last message of the user in it, if there is one. -/
structure TrimsRight (result : List LLMMessage) : Prop where
  unchanged : fits messages = true -> result = messages
  trimmed : fits messages = false -> ∃ kept,
    result = (firstSystem messages).1 ++ kept ∧ kept <:+ (firstSystem messages).2 ∧
      sinceLastUser (firstSystem messages).2 <:+ kept ∧
      (∀ longer, longer <:+ (firstSystem messages).2 ->
        sinceLastUser (firstSystem messages).2 <:+ longer ->
        fits ((firstSystem messages).1 ++ longer) = true -> longer.length ≤ kept.length) ∧
      (fits ((firstSystem messages).1 ++ sinceLastUser (firstSystem messages).2) = true ->
        fits result = true)

/-- What has to stay fits, unless it is the last message of all. -/
structure Coverable : Prop where
  nothing : sinceLastUser (firstSystem messages).2 = [] -> fits (firstSystem messages).1 = true ->
    fits ((firstSystem messages).1 ++ (firstSystem messages).2.getLast?.toList) = true
  several : 1 < (sinceLastUser (firstSystem messages).2).length ->
    fits ((firstSystem messages).1 ++ sinceLastUser (firstSystem messages).2) = true

/-- Of a list that fits, every suffix does, behind the same messages. -/
def Monotone : Prop :=
  ∀ first longer shorter, shorter <:+ longer -> fits (first ++ longer) = true ->
    fits (first ++ shorter) = true

variable {fits messages}

theorem sinceLastUser_suffix (rest : List LLMMessage) : sinceLastUser rest <:+ rest := by
  induction rest with
  | nil => exact List.suffix_rfl
  | cons message rest ih =>
    unfold sinceLastUser
    split
    · exact List.suffix_rfl
    · exact ih.trans (List.suffix_cons message rest)

theorem tooMany_spec (first last middle : List LLMMessage) :
    (∀ place < tooMany fits first last middle, fits (first ++ middle.drop place ++ last) = false) ∧
    (tooMany fits first last middle = middle.length ∨
      fits (first ++ middle.drop (tooMany fits first last middle) ++ last) = true) := by
  induction middle with
  | nil => exact ⟨fun place below => absurd below (by simp [tooMany]), .inl (by simp [tooMany])⟩
  | cons message rest ih =>
    unfold tooMany
    rw [List.tails_cons, List.findIdx_cons]
    cases here : fits (first ++ (message :: rest) ++ last) with
    | true => exact ⟨fun place below => by simp at below, .inr (by simpa using here)⟩
    | false =>
      rw [cond_false, List.length_cons, Nat.succ_min_succ]
      refine ⟨fun place below => ?_, ih.2.imp (congrArg (· + 1)) id⟩
      cases place with
      | zero => exact here
      | succ place => exact ih.1 place (Nat.lt_of_succ_lt_succ below)

theorem length_getLast?_toList (rest : List LLMMessage) : rest.getLast?.toList.length ≤ 1 := by
  cases rest.getLast? <;> simp

def leftOver (fits : List LLMMessage -> Bool) (first rest : List LLMMessage) : List LLMMessage :=
  rest.dropLast.drop (tooMany fits first rest.getLast?.toList rest.dropLast) ++ rest.getLast?.toList

variable {first rest : List LLMMessage}

theorem leftOver_eq (first rest : List LLMMessage) : leftOver fits first rest =
    rest.drop (tooMany fits first rest.getLast?.toList rest.dropLast) := by
  have inside : tooMany fits first rest.getLast?.toList rest.dropLast ≤ rest.dropLast.length :=
    Nat.min_le_right _ _
  unfold leftOver
  rw [← List.drop_append_of_le_length inside, dropLast_append_last]

theorem length_le_leftOver {longer : List LLMMessage} (suffix : longer <:+ rest)
    (fit : fits (first ++ longer) = true) : longer.length ≤ (leftOver fits first rest).length := by
  rw [leftOver_eq, List.length_drop]
  by_contra shorter
  have most := suffix.length_le
  have below : rest.length - longer.length <
      tooMany fits first rest.getLast?.toList rest.dropLast := by omega
  have inside : rest.length - longer.length ≤ rest.dropLast.length :=
    (Nat.le_of_lt below).trans (Nat.min_le_right _ _)
  have unfit := (tooMany_spec first rest.getLast?.toList rest.dropLast).1 _ below
  rw [List.append_assoc, ← List.drop_append_of_le_length inside, dropLast_append_last,
    ← List.suffix_iff_eq_drop.mp suffix, fit] at unfit
  cases unfit

theorem leftOver_fits_or (first rest : List LLMMessage) :
    leftOver fits first rest = rest.getLast?.toList ∨
      fits (first ++ leftOver fits first rest) = true := by
  unfold leftOver
  rw [← List.append_assoc]
  refine (tooMany_spec first rest.getLast?.toList rest.dropLast).2.imp (fun whole => ?_) id
  rw [whole, List.drop_length, List.nil_append]

theorem last_suffix_leftOver (first rest : List LLMMessage) :
    rest.getLast?.toList <:+ leftOver fits first rest :=
  List.suffix_append _ _

theorem fits_leftOver (last : fits (first ++ rest.getLast?.toList) = true) :
    fits (first ++ leftOver fits first rest) = true := by
  rcases leftOver_fits_or first rest with same | fit
  · rwa [same]
  · exact fit

theorem trimMessagesToFit_leftOver (unfit : fits messages = false) : trimMessagesToFit fits messages =
    (firstSystem messages).1 ++ leftOver fits (firstSystem messages).1 (firstSystem messages).2 := by
  unfold trimMessagesToFit leftOver
  rw [unfit, if_neg Bool.false_ne_true]
  dsimp only
  rw [trimMiddle_eq, List.append_assoc]

theorem last_suffix {needed : List LLMMessage} (suffix : needed <:+ rest) (some_ : needed ≠ []) :
    rest.getLast?.toList <:+ needed := by
  rcases suffix with ⟨before, rfl⟩
  rw [List.getLast?_append_of_ne_nil _ some_]
  exact ⟨needed.dropLast, dropLast_append_last needed⟩

theorem trimsRight_iff (monotone : Monotone fits) :
    TrimsRight fits messages (trimMessagesToFit fits messages) <->
      (fits messages = false -> Coverable fits messages) := by
  have suffix := sinceLastUser_suffix (firstSystem messages).2
  constructor
  · intro right unfit
    rcases right.trimmed unfit with ⟨kept, result, _, has, _, fit⟩
    rw [trimMessagesToFit_leftOver unfit] at result fit
    cases List.append_cancel_left result
    constructor
    · intro none_ alone
      rw [none_, List.append_nil] at fit
      exact monotone _ _ _ (last_suffix_leftOver _ _) (fit alone)
    · intro several
      rcases leftOver_fits_or (firstSystem messages).1 (firstSystem messages).2 with same | here
      · rw [same] at has
        exact absurd (has.length_le.trans (length_getLast?_toList _)) (Nat.not_le.mpr several)
      · exact monotone _ _ _ has here
  · intro coverable
    refine ⟨fun fit => if_pos fit, fun unfit => ?_⟩
    rw [trimMessagesToFit_leftOver unfit]
    have last : fits ((firstSystem messages).1 ++ sinceLastUser (firstSystem messages).2) = true ->
        fits ((firstSystem messages).1 ++ (firstSystem messages).2.getLast?.toList) = true := by
      intro fit
      by_cases none_ : sinceLastUser (firstSystem messages).2 = []
      · exact (coverable unfit).nothing none_ (by simpa only [none_, List.append_nil] using fit)
      · exact monotone _ _ _ (last_suffix suffix none_) fit
    refine ⟨_, rfl, ?_, ?_, fun longer inside _ fit => length_le_leftOver inside fit,
      fun fit => fits_leftOver (last fit)⟩
    · exact leftOver_eq _ _ ▸ List.drop_suffix _ _
    · refine List.suffix_of_suffix_length_le suffix (leftOver_eq _ _ ▸ List.drop_suffix _ _) ?_
      rcases Nat.lt_or_ge 1 (sinceLastUser (firstSystem messages).2).length with several | few
      · exact length_le_leftOver suffix ((coverable unfit).several several)
      · refine Nat.le_trans ?_ (last_suffix_leftOver _ _).length_le
        cases whole : (firstSystem messages).2 with
        | nil => exact Nat.zero_le _
        | cons first rest =>
          rw [whole] at few
          rw [List.getLast?_cons]
          exact few

section

variable (dumps : Json -> String) (tools : List ToolDefinition) (model : String)

/-- `fits_in_context`, where the reserve may be negative too. -/
def fitsWithReserve (reserve : Int) (messages : List LLMMessage) : Bool :=
  decide ((estimateMessagesTokens dumps messages + estimateToolsTokens dumps tools : Nat) + reserve ≤
    (getModelLimit model : Int))

theorem fitsWithReserve_natCast (reserve : Nat) (messages : List LLMMessage) :
    fitsWithReserve dumps tools model reserve messages =
      fitsInContext dumps tools model reserve messages := by
  unfold fitsWithReserve fitsInContext
  rw [decide_eq_decide]
  omega

theorem estimateMessagesTokens_append (first second : List LLMMessage) :
    estimateMessagesTokens dumps (first ++ second) =
      estimateMessagesTokens dumps first + estimateMessagesTokens dumps second := by
  unfold estimateMessagesTokens
  rw [List.map_append, List.sum_append]

theorem monotone_fitsWithReserve (reserve : Int) :
    Monotone (fitsWithReserve dumps tools model reserve) := by
  rintro first _ shorter ⟨before, rfl⟩ fit
  unfold fitsWithReserve at fit ⊢
  rw [decide_eq_true_iff] at fit ⊢
  simp only [estimateMessagesTokens_append] at fit ⊢
  omega

/-- The system message, the last message of the user and the longest fitting run of messages are kept
exactly if all messages fit, or those which have to stay do. -/
theorem trims_right_iff (reserve : Int) (messages : List LLMMessage) :
    TrimsRight (fitsWithReserve dumps tools model reserve) messages
        (trimMessagesToFit (fitsWithReserve dumps tools model reserve) messages) <->
      (fitsWithReserve dumps tools model reserve messages = false ->
        Coverable (fitsWithReserve dumps tools model reserve) messages) :=
  trimsRight_iff (monotone_fitsWithReserve dumps tools model reserve)

end

def answeredQuestion : List LLMMessage :=
  [{ role := .user, content := some "Which of the hosts in the cluster did restart during the night?" },
    { role := .assistant, content := some "None." }]

/-- Only the answer is left of a history which ends with one. -/
theorem question_dropped : ¬ TrimsRight (fitsWithReserve (fun _ => "") [] "gpt-4o" 127990)
    answeredQuestion
    (trimMessagesToFit (fitsWithReserve (fun _ => "") [] "gpt-4o" 127990) answeredQuestion) := by
  rw [trimsRight_iff (monotone_fitsWithReserve _ _ _ _)]
  intro coverable
  have fit := (coverable (by decide)).several (by decide)
  revert fit
  decide
end TokenCounter
end Memory
end BreadMind
