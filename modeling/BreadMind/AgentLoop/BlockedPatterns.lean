import BreadMind.AgentLoop.Guard
import BreadMind.Text.Printing

namespace BreadMind
namespace AgentLoop

open Text

/-!
# Blocked patterns and permission rules

Both ways to ask the guard look for the blocked patterns in the printed text of
the arguments, in which letters are escaped.  With a level of autonomy that
leaves the decision to a classifier, the asynchronous one does not come to the
permission rules.
-/

structure SafetyClassification where
  suggestedAction : String
  reason : String

/-- What a level of autonomy with a classifier asks, for the context of the call. -/
abbrev AutoClassifier := String -> Json -> SafetyClassification

def SafetyClassification.verdict (classification : SafetyClassification) : SafetyVerdict :=
  if classification.suggestedAction = "allow" then ⟨true, false, ""⟩
  else if classification.suggestedAction = "deny" then ⟨false, false, classification.reason⟩
  else ⟨true, true, classification.reason⟩

/-- Python's texts, with the printing of values written out. -/
def PythonText.printedBy (text : PythonText) (printing : Printing) : PythonText :=
  { text with str := printing.str }

namespace SafetyGuard

variable (text : PythonText) (guard : SafetyGuard) (classifier : Option AutoClassifier)
variable (toolName : String) (arguments : Json)

def checkAsync : SafetyVerdict :=
  match guard.blockedPatterns.find? fun pattern =>
      containsText (text.str arguments).toList pattern.toList with
  | some pattern => ⟨false, false, "Blocked pattern matched: " ++ reEscape pattern⟩
  | none =>
    match if guard.autonomy = "auto-llm" then classifier else none with
    | some classify => (classify toolName arguments).verdict
    | none => guard.check text toolName arguments

/-- A blocked pattern is a part of some text inside the arguments. -/
def Occurs : Prop :=
  ∃ pattern ∈ guard.blockedPatterns,
    ∃ inside ∈ textsOf arguments, pattern.toList <:+: inside.toList

/-- A blocked pattern is a part of the arguments as they are printed. -/
def OccursPrinted : Prop :=
  ∃ pattern ∈ guard.blockedPatterns,
    pattern.toList <:+: (text.str arguments).toList

end SafetyGuard

def SafetyVerdict.Follows (verdict : SafetyVerdict) (action : String) : Prop :=
  (action = "allow" -> verdict.allowed = true ∧ verdict.needsApproval = false) ∧
    (action = "deny" -> verdict.allowed = false) ∧
      (action = "ask" -> verdict.allowed = true ∧ verdict.needsApproval = true)

def SafetyClassification.Suggests (classification : SafetyClassification) (action : String) : Prop :=
  (action = "allow" -> classification.suggestedAction = "allow") ∧
    (action = "deny" -> classification.suggestedAction = "deny") ∧
      (action = "ask" -> classification.suggestedAction ≠ "allow" ∧
        classification.suggestedAction ≠ "deny")

theorem SafetyClassification.verdict_follows {classification : SafetyClassification}
    {action : String} :
    classification.verdict.Follows action <-> classification.Suggests action := by
  unfold verdict SafetyVerdict.Follows Suggests
  split
  case isTrue allows => simp [allows]
  case isFalse other =>
    split
    case isTrue denies => simp [denies]
    case isFalse another => simp [other, another]

theorem SafetyVerdict.follows_of_denied {verdict : SafetyVerdict} (denied : verdict.allowed = false)
    {action : String} : verdict.Follows action <-> action ≠ "allow" ∧ action ≠ "ask" := by
  unfold Follows
  rw [denied]
  simp

namespace SafetyGuard

section

variable (text : PythonText) (guard : SafetyGuard) (classifier : Option AutoClassifier)
variable (toolName : String) (arguments : Json)

/-- A pattern that occurs is denied either way of asking, and where none occurs
both follow the first permission rule that matches. -/
def Enforced : Prop :=
  (guard.Occurs arguments -> (guard.check text toolName arguments).allowed = false ∧
      (guard.checkAsync text classifier toolName arguments).allowed = false) ∧
  (Not (guard.Occurs arguments) -> ∀ action,
    guard.checkPermissionRules text toolName arguments = some action ->
      (guard.check text toolName arguments).Follows action ∧
        (guard.checkAsync text classifier toolName arguments).Follows action)

def Fits (rule : RuleEntry) : Prop :=
  let compiled := compileRule text rule
  fnmatch toolName compiled.toolPattern = true ∧
    (compiled.argPattern = "" ∨
      fnmatch (text.str arguments) ("*" ++ compiled.argPattern ++ "*") = true)

def ClassifierSays (action : String) : Prop :=
  guard.autonomy = "auto-llm" -> ∀ classify, classifier = some classify ->
    (classify toolName arguments).Suggests action

/-- Where a pattern occurs, one is also found in the printed arguments, or the
permission rules deny and so does a classifier asked in their place.  Where none
occurs and a rule allows, denies or asks: if one is found in the printed arguments
all the same, the rule denies; if none is, a classifier asked in its place says
what the rule says. -/
def Undistorted : Prop :=
  (guard.Occurs arguments -> guard.OccursPrinted text arguments ∨
    guard.checkPermissionRules text toolName arguments = some "deny" ∧
      guard.ClassifierSays classifier toolName arguments "deny") ∧
  (Not (guard.Occurs arguments) -> ∀ action,
    guard.checkPermissionRules text toolName arguments = some action ->
      (guard.OccursPrinted text arguments -> action ≠ "allow" ∧ action ≠ "ask") ∧
        (Not (guard.OccursPrinted text arguments) ->
          guard.ClassifierSays classifier toolName arguments action))

end

/-! ## The two ways to ask -/

variable {text : PythonText} {guard : SafetyGuard} {classifier : Option AutoClassifier}
variable {toolName : String} {arguments : Json}

theorem containsText_iff {whole part : List Char} :
    containsText whole part = true <-> part <:+: whole := by
  unfold containsText
  rw [List.any_eq_true]
  constructor
  · intro found
    rcases found with ⟨tail, member, starts⟩
    exact (List.isPrefixOf_iff_prefix.mp starts).isInfix.trans ((List.mem_tails _ _).mp member).isInfix
  · intro inside
    rcases inside with ⟨before, after, same⟩
    refine ⟨part ++ after, (List.mem_tails _ _).mpr ⟨before, ?_⟩, ?_⟩
    · rw [← List.append_assoc, same]
    · exact List.isPrefixOf_iff_prefix.mpr (List.prefix_append part after)

theorem checkPermissionRules_iff {action : String} :
    guard.checkPermissionRules text toolName arguments = some action <->
      ∃ before rule after, guard.permissionRules = before ++ rule :: after ∧
        Fits text toolName arguments rule ∧ rule.action = action ∧
        ∀ earlier ∈ before, Not (Fits text toolName arguments earlier) := by
  have compiled : ∀ rule : RuleEntry, (compileRule text rule).action = rule.action := by
    intro rule
    unfold compileRule
    split
    · rfl
    · split <;> rfl
  have fits : ∀ rule : RuleEntry, Fits text toolName arguments rule <->
      (fnmatch toolName (compileRule text rule).toolPattern &&
        ((compileRule text rule).argPattern == "" || fnmatch (text.str arguments)
          ("*" ++ (compileRule text rule).argPattern ++ "*"))) = true := by
    intro rule
    rw [Bool.and_eq_true, Bool.or_eq_true, beq_iff_eq]
    rfl
  unfold checkPermissionRules
  dsimp only
  rw [List.find?_map, Option.map_map, Option.map_eq_some_iff]
  constructor
  · rintro ⟨rule, found, same⟩
    rcases List.find?_eq_some_iff_append.mp found with ⟨here, before, after, split, earlier⟩
    refine ⟨before, rule, after, split, (fits rule).mpr here, (compiled rule).symm.trans same, ?_⟩
    intro other member fitting
    have missing := earlier other member
    rw [Function.comp_apply, (fits other).mp fitting] at missing
    cases missing
  · rintro ⟨before, rule, after, split, fitting, same, earlier⟩
    refine ⟨rule, List.find?_eq_some_iff_append.mpr ⟨(fits rule).mp fitting, before, after, split, ?_⟩,
      (compiled rule).trans same⟩
    intro other member
    rw [Function.comp_apply, Bool.not_eq_true', Bool.eq_false_iff]
    exact fun holds => earlier other member ((fits other).mpr holds)

theorem denied_of_printed (printed : guard.OccursPrinted text arguments) :
    (guard.check text toolName arguments).allowed = false ∧
      (guard.checkAsync text classifier toolName arguments).allowed = false := by
  have found : (guard.blockedPatterns.find? fun pattern =>
      containsText (text.str arguments).toList pattern.toList).isSome = true := by
    rcases printed with ⟨pattern, member, inside⟩
    rw [List.find?_isSome]
    exact ⟨pattern, member, containsText_iff.mpr inside⟩
  rcases Option.isSome_iff_exists.mp found with ⟨pattern, here⟩
  unfold check checkAsync
  rw [here]
  exact ⟨rfl, rfl⟩

theorem notFound_of_unprinted (unprinted : Not (guard.OccursPrinted text arguments)) :
    (guard.blockedPatterns.find? fun pattern =>
      containsText (text.str arguments).toList pattern.toList) = none := by
  rw [List.find?_eq_none]
  intro pattern member inside
  exact unprinted ⟨pattern, member, containsText_iff.mp inside⟩

theorem check_follows (unprinted : Not (guard.OccursPrinted text arguments)) {action : String}
    (rule : guard.checkPermissionRules text toolName arguments = some action) :
    (guard.check text toolName arguments).Follows action := by
  unfold check
  rw [notFound_of_unprinted unprinted, rule]
  dsimp only
  split
  case h_1 same =>
    cases same
    simp [SafetyVerdict.Follows]
  case h_2 same =>
    cases same
    simp [SafetyVerdict.Follows]
  case h_3 same =>
    cases same
    simp [SafetyVerdict.Follows]
  case h_4 allow deny ask =>
    refine ⟨fun same => ?_, fun same => ?_, fun same => ?_⟩
    · exact absurd (congrArg some same) allow
    · exact absurd (congrArg some same) deny
    · exact absurd (congrArg some same) ask

theorem checkAutonomy_allowed : (guard.checkAutonomy text toolName arguments).allowed = true := by
  unfold checkAutonomy
  split_ifs <;> rfl

theorem check_denied_iff (unprinted : Not (guard.OccursPrinted text arguments)) :
    (guard.check text toolName arguments).allowed = false <->
      guard.checkPermissionRules text toolName arguments = some "deny" := by
  constructor
  · intro denied
    unfold check at denied
    rw [notFound_of_unprinted unprinted] at denied
    dsimp only at denied
    split at denied
    case h_1 => cases denied
    case h_2 same => exact same
    case h_3 => cases denied
    case h_4 =>
      rw [checkAutonomy_allowed] at denied
      cases denied
  · intro rule
    exact (check_follows unprinted rule).2.1 rfl

theorem checkAsync_cases (unprinted : Not (guard.OccursPrinted text arguments)) :
    (∃ classify, guard.autonomy = "auto-llm" ∧ classifier = some classify ∧
      guard.checkAsync text classifier toolName arguments = (classify toolName arguments).verdict) ∨
    ((guard.autonomy = "auto-llm" -> classifier = none) ∧
      guard.checkAsync text classifier toolName arguments = guard.check text toolName arguments) := by
  unfold checkAsync
  rw [notFound_of_unprinted unprinted]
  dsimp only
  by_cases automatic : guard.autonomy = "auto-llm"
  · rw [if_pos automatic]
    cases classifier with
    | none => exact .inr ⟨fun _ => rfl, rfl⟩
    | some classify => exact .inl ⟨classify, automatic, rfl, rfl⟩
  · rw [if_neg automatic]
    exact .inr ⟨fun other => absurd other automatic, rfl⟩

theorem checkAsync_follows (unprinted : Not (guard.OccursPrinted text arguments)) {action : String}
    (rule : guard.checkPermissionRules text toolName arguments = some action) :
    (guard.checkAsync text classifier toolName arguments).Follows action <->
      guard.ClassifierSays classifier toolName arguments action := by
  unfold ClassifierSays
  rcases @checkAsync_cases text guard classifier toolName arguments unprinted with
    ⟨classify, automatic, wired, same⟩ | ⟨unasked, same⟩
  · rw [same, SafetyClassification.verdict_follows]
    constructor
    · intro suggests _ other here
      cases wired.symm.trans here
      exact suggests
    · intro suggested
      exact suggested automatic classify wired
  · rw [same]
    refine iff_of_true (check_follows unprinted rule) ?_
    intro automatic classify wired
    cases (unasked automatic).symm.trans wired

theorem enforced_iff_undistorted : guard.Enforced text classifier toolName arguments <->
    guard.Undistorted text classifier toolName arguments := by
  unfold Enforced Undistorted
  by_cases printed : guard.OccursPrinted text arguments
  · have denied := @denied_of_printed text guard classifier toolName arguments printed
    refine and_congr (iff_of_true (fun _ => denied) fun _ => .inl printed) ?_
    refine imp_congr_right fun _ => forall_congr' fun action => imp_congr_right fun _ => ?_
    rw [SafetyVerdict.follows_of_denied denied.1, SafetyVerdict.follows_of_denied denied.2, and_self]
    constructor
    · exact fun other => ⟨fun _ => other, fun unprinted => absurd printed unprinted⟩
    · exact fun both => both.1 printed
  · refine and_congr (imp_congr_right fun _ => ?_) ?_
    · rw [check_denied_iff printed, or_iff_right printed]
      refine and_congr_right fun rule => ?_
      rw [← checkAsync_follows printed rule]
      simp [SafetyVerdict.Follows]
    · refine imp_congr_right fun _ => forall_congr' fun action => imp_congr_right fun rule => ?_
      rw [checkAsync_follows printed rule]
      constructor
      · exact fun both => ⟨fun here => absurd here printed, fun _ => both.2⟩
      · exact fun both => ⟨check_follows printed rule, both.2 printed⟩

end SafetyGuard

theorem occursPrinted_of_plain {text : PythonText} {printing : Printing} {guard : SafetyGuard}
    {fields : List (String × Json)} {pattern inside : String}
    (blocked : pattern ∈ guard.blockedPatterns)
    (plain : ∀ letter ∈ pattern.toList, printing.Plain letter)
    (member : inside ∈ textsOf (.obj fields)) (occurs : pattern.toList <:+: inside.toList) :
    guard.OccursPrinted (text.printedBy printing) (.obj fields) := by
  refine ⟨pattern, blocked, ?_⟩
  change _ <:+: (String.ofList (printing.repr (.obj fields))).toList
  rw [String.toList_ofList]
  exact Printing.infix_repr plain (.obj fields) ⟨inside, member, occurs⟩

/-- Blocked patterns are denied either way of asking, and elsewhere the first
permission rule that matches decides, exactly if the printing of the arguments and the
classifier distort nothing. No pattern is lost whose letters are printed as they are.
-/
theorem enforced_iff (text : PythonText) (printing : Printing) (guard : SafetyGuard)
    (classifier : Option AutoClassifier) (toolName : String) (fields : List (String × Json)) :
    (guard.Enforced (text.printedBy printing) classifier toolName (.obj fields) <->
      guard.Undistorted (text.printedBy printing) classifier toolName (.obj fields)) ∧
    ∀ pattern ∈ guard.blockedPatterns, (∀ letter ∈ pattern.toList, printing.Plain letter) ->
        ∀ inside ∈ textsOf (.obj fields), pattern.toList <:+: inside.toList ->
          guard.OccursPrinted (text.printedBy printing) (.obj fields) :=
  ⟨SafetyGuard.enforced_iff_undistorted,
    fun _ blocked plain _ member occurs => occursPrinted_of_plain blocked plain member occurs⟩

/-- Every letter beyond ASCII is printable; the case of letters stays as it is. -/
def plainPrinting : Printing where
  isPrintable := fun _ => true
  floatText := fun _ => ""

def plainText : PythonText where
  str := fun _ => ""
  lower := id
  isWord := Char.isAlphanum
  isSpace := Char.isWhitespace

def quotedPattern : SafetyGuard where
  autonomy := "auto"
  blockedPatterns := ["rm -rf '/'"]

def deniedShell : SafetyGuard where
  autonomy := "auto-llm"
  permissionRules := [{ pattern := "shell_exec", action := "deny" }]

/-- A command with both kinds of quotes is printed with its single quotes escaped,
so the blocked pattern is not found; and a classifier that allows a call is asked
in the place of the rule that denies it. -/
theorem guard_distorted :
    Not (quotedPattern.Enforced (plainText.printedBy plainPrinting) none "shell_exec"
      (.obj [("command", .str "echo \"bye\" && rm -rf '/'")])) ∧
    Not (deniedShell.Enforced (plainText.printedBy plainPrinting)
      (some fun _ _ => { suggestedAction := "allow", reason := "" }) "shell_exec"
      (.obj [("command", .str "ls")])) := by
  constructor
  · intro enforced
    have occurs : quotedPattern.Occurs (.obj [("command", .str "echo \"bye\" && rm -rf '/'")]) :=
      ⟨"rm -rf '/'", List.mem_singleton.mpr rfl, "echo \"bye\" && rm -rf '/'",
        by simp [textsOf, textsOfFields], by decide⟩
    have denied := (enforced.1 occurs).1
    revert denied
    decide +kernel
  · intro enforced
    have absent : Not (deniedShell.Occurs (.obj [("command", .str "ls")])) := by
      intro occurs
      rcases occurs with ⟨pattern, member, _⟩
      cases member
    have follows := (enforced.2 absent "deny" (by decide +kernel)).2.2.1 rfl
    revert follows
    decide +kernel

end AgentLoop
end BreadMind
