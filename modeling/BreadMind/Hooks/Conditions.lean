import BreadMind.AgentLoop.Guard
import BreadMind.Hooks.Events

namespace BreadMind
namespace Hooks

open Execution

/-!
# Conditions of hooks

A condition names an event, a field of the payload, or a tool, which may have a
pattern for its input.  The pattern is a file name's, so the input has to be a
text: any other value raises a `TypeError`.
-/

inductive HookPattern where
  | nothing
  | event (value : String)
  | dataField (path : List String) (expected : String)
  | tool (name : String) (argument : Option String)

/-- What stands behind a fixed beginning. -/
def afterPrefix (start : String) (text : List Char) : Option (List Char) :=
  if start.toList.isPrefixOf text then some (text.drop start.length) else none

/-- A final newline does not count for `$`. -/
def withoutNewline (text : List Char) : List Char :=
  if text.getLast? = some '\n' then text.dropLast else text

/-- `^event=(.+)$`; the dot does not match a newline. -/
def readEvent (pattern : List Char) : Option HookPattern :=
  match afterPrefix "event=" pattern with
  | none => none
  | some rest =>
    let line := withoutNewline rest
    if line = [] ∨ '\n' ∈ line then none else some (.event (String.ofList line))

section Words

variable (isWord : Char -> Bool)

/-- `^data\.([\w.]+)=(.+)$`; the dot matches everything. -/
def readField (pattern : List Char) : Option HookPattern :=
  match afterPrefix "data." pattern with
  | none => none
  | some rest =>
    let inPath := fun letter => isWord letter || letter == '.'
    match rest.takeWhile inPath, rest.dropWhile inPath with
    | [], _ => none
    | path, '=' :: first :: more =>
      some (.dataField ((path.splitOn '.').map String.ofList) (String.ofList (first :: more)))
    | _, _ => none

def isNameStart (letter : Char) : Bool :=
  ('A' ≤ letter && letter ≤ 'Z') || ('a' ≤ letter && letter ≤ 'z') || letter == '_'

/-- `^([A-Za-z_]\w*)(?:\((.*)?\))?$`. -/
def readTool : List Char -> Option HookPattern
  | [] => none
  | first :: rest =>
    if isNameStart first then
      let name := String.ofList (first :: rest.takeWhile isWord)
      match withoutNewline (rest.dropWhile isWord) with
      | [] => some (.tool name none)
      | '(' :: inside =>
        if inside.getLast? = some ')' then
          some (.tool name (some (String.ofList inside.dropLast)))
        else none
      | _ => none
    else none

/-- The order in which a pattern is tried. -/
def readPattern (pattern : List Char) : HookPattern :=
  ((readEvent pattern).orElse fun _ => (readField isWord pattern).orElse fun _ =>
    readTool isWord pattern).getD .nothing

end Words

/-- `_match_data_field`: a leaf is only ever equal to a text as a text. -/
def matchDataField : Json -> List String -> String -> Bool
  | .str text, [], expected => text == expected
  | .obj fields, key :: path, expected =>
    match fields.lookup key with
    | some value => matchDataField value path expected
    | none => false
  | _, _, _ => false

/-- `fnmatch` takes the input for the name of a file. -/
def matchInput (pattern : String) : Option Json -> Except PyError Bool
  | none => .ok false
  | some .null => .ok false
  | some (.str input) => .ok (AgentLoop.fnmatch input pattern)
  | some _ => .error (.typeError "expected str, bytes or os.PathLike object")

variable (payload : HookPayload)

def matchTool (name : String) (argument : Option String) : Except PyError Bool :=
  match payload.data.lookup "tool_name" with
  | some (.str actual) =>
    if actual = name then
      match argument with
      | none => .ok true
      | some pattern => matchInput pattern (payload.data.lookup "tool_input")
    else .ok false
  | _ => .ok false

/-- `_evaluate`, for a pattern that has been read. -/
def HookPattern.evaluate : HookPattern -> Except PyError Bool
  | nothing => .ok false
  | event value => .ok (payload.event.value == value)
  | dataField path expected => .ok (matchDataField (.obj payload.data) path expected)
  | tool name argument => matchTool payload name argument

inductive HookCondition where
  | pattern (pattern : String)
  | anyOf (patterns : List String)

section Matching

variable (isWord : Char -> Bool)

/-- What a pattern is, without the mark that turns it round. -/
def patternOf (pattern : String) : Bool × HookPattern :=
  match pattern.toList with
  | '!' :: rest => (true, readPattern isWord rest)
  | letters => (false, readPattern isWord letters)

def matchSingle (pattern : String) (payload : HookPayload) : Except PyError Bool := do
  let found <- (patternOf isWord pattern).2.evaluate payload
  pure ((patternOf isWord pattern).1 != found)

/-- `any(...)` stops at the first pattern that matches. -/
def matchAny (payload : HookPayload) : List String -> Except PyError Bool
  | [] => .ok false
  | pattern :: rest => do
    if (<- matchSingle isWord pattern payload) then pure true
    else matchAny payload rest

def matchesCondition (condition : Option HookCondition) (payload : HookPayload) :
    Except PyError Bool :=
  match condition with
  | none => .ok true
  | some (.pattern pattern) => matchSingle isWord pattern payload
  | some (.anyOf patterns) => matchAny isWord payload patterns

end Matching

/-! ## When a condition can be evaluated -/

/-- A pattern for the input of the payload's own tool, where that input is
neither missing nor a text. -/
def HookPattern.Clashes : HookPattern -> Prop
  | tool name (some _) => payload.data.lookup "tool_name" = some (.str name) ∧
      ∃ input, payload.data.lookup "tool_input" = some input ∧ input ≠ .null ∧
        ∀ text, input ≠ .str text
  | _ => False

theorem matchInput_ok_iff {pattern : String} {given : Option Json} :
    (∃ found, matchInput pattern given = .ok found) <->
      Not (∃ input, given = some input ∧ input ≠ .null ∧ ∀ text, input ≠ .str text) := by
  cases given with
  | none =>
    refine iff_of_true ⟨false, rfl⟩ ?_
    intro clash
    rcases clash with ⟨input, missing, _⟩
    cases missing
  | some input =>
    cases input with
    | null =>
      refine iff_of_true ⟨false, rfl⟩ ?_
      intro clash
      rcases clash with ⟨other, here, notNull, _⟩
      cases here
      exact notNull rfl
    | str text =>
      refine iff_of_true ⟨_, rfl⟩ ?_
      intro clash
      rcases clash with ⟨other, here, _, noText⟩
      cases here
      exact noText text rfl
    | bool _ | int _ | float _ | arr _ | obj _ =>
      refine iff_of_false ?_ ?_
      · intro found
        rcases found with ⟨found, raised⟩
        cases raised
      · intro free
        exact free ⟨_, rfl, Json.noConfusion, fun text => Json.noConfusion⟩

theorem matchTool_ok_iff {payload : HookPayload} {name : String} {argument : Option String} :
    (∃ found, matchTool payload name argument = .ok found) <->
      Not ((HookPattern.tool name argument).Clashes payload) := by
  unfold matchTool
  split
  case h_1 found =>
    split
    case isTrue same =>
      subst same
      cases argument with
      | none => exact iff_of_true ⟨true, rfl⟩ id
      | some pattern =>
        refine matchInput_ok_iff.trans (not_congr ?_)
        exact (and_iff_right found).symm
    case isFalse different =>
      refine iff_of_true ⟨false, rfl⟩ ?_
      cases argument with
      | none => exact id
      | some pattern =>
        intro clash
        have named := found.symm.trans clash.1
        exact different (Json.str.inj (Option.some.inj named))
  case h_2 other =>
    refine iff_of_true ⟨false, rfl⟩ ?_
    cases argument with
    | none => exact id
    | some pattern => exact fun clash => other name clash.1

theorem HookPattern.evaluate_ok_iff {pattern : HookPattern} {payload : HookPayload} :
    (∃ found, pattern.evaluate payload = .ok found) <-> Not (pattern.Clashes payload) := by
  cases pattern with
  | tool name argument => exact matchTool_ok_iff
  | nothing | event _ | dataField _ _ => exact iff_of_true ⟨_, rfl⟩ id

section Matching

variable {isWord : Char -> Bool} {payload : HookPayload}

theorem matchSingle_ok_iff {pattern : String} :
    (∃ found, matchSingle isWord pattern payload = .ok found) <->
      Not ((patternOf isWord pattern).2.Clashes payload) := by
  rw [← HookPattern.evaluate_ok_iff]
  unfold matchSingle
  cases (patternOf isWord pattern).2.evaluate payload with
  | error error => exact iff_of_false (fun ⟨_, raised⟩ => nomatch raised) fun ⟨_, raised⟩ => nomatch raised
  | ok found => exact iff_of_true ⟨_, rfl⟩ ⟨found, rfl⟩

/-- No pattern clashes with the payload, up to the first one that matches. -/
def ClearOf (isWord : Char -> Bool) (payload : HookPayload) : List String -> Prop
  | [] => True
  | pattern :: rest => Not ((patternOf isWord pattern).2.Clashes payload) ∧
      (matchSingle isWord pattern payload = .ok false -> ClearOf isWord payload rest)

/-- No pattern of the condition that is tried clashes with the payload. -/
def Clear (isWord : Char -> Bool) (payload : HookPayload) : Option HookCondition -> Prop
  | none => True
  | some (.pattern pattern) => Not ((patternOf isWord pattern).2.Clashes payload)
  | some (.anyOf patterns) => ClearOf isWord payload patterns

theorem matchAny_ok_iff {patterns : List String} :
    (∃ found, matchAny isWord payload patterns = .ok found) <->
      ClearOf isWord payload patterns := by
  induction patterns with
  | nil => exact iff_of_true ⟨false, rfl⟩ trivial
  | cons first rest ih =>
    have single := @matchSingle_ok_iff isWord payload first
    unfold matchAny ClearOf
    rw [← single, ← ih]
    cases matchSingle isWord first payload with
    | error error =>
      refine iff_of_false ?_ ?_
      · intro found
        rcases found with ⟨found, raised⟩
        cases raised
      · intro clear
        rcases clear.1 with ⟨found, raised⟩
        cases raised
    | ok found =>
      cases found with
      | true =>
        refine iff_of_true ⟨true, rfl⟩ ⟨⟨true, rfl⟩, ?_⟩
        intro impossible
        cases impossible
      | false =>
        constructor
        · exact fun answered => ⟨⟨false, rfl⟩, fun _ => answered⟩
        · exact fun clear => clear.2 rfl

theorem matchesCondition_ok_iff {condition : Option HookCondition} :
    (∃ found, matchesCondition isWord condition payload = .ok found) <->
      Clear isWord payload condition := by
  rcases condition with _ | pattern | patterns
  · exact iff_of_true ⟨true, rfl⟩ trivial
  · exact matchSingle_ok_iff
  · exact matchAny_ok_iff

end Matching

/-! ## What a condition says -/

def fieldAt : Json -> List String -> Option Json
  | value, [] => some value
  | .obj fields, key :: path =>
    match fields.lookup key with
    | some value => fieldAt value path
    | none => none
  | _, _ :: _ => none

def HookPattern.Holds : HookPattern -> Prop
  | nothing => False
  | event value => payload.event.value = value
  | dataField path expected => fieldAt (.obj payload.data) path = some (.str expected)
  | tool name argument => payload.data.lookup "tool_name" = some (.str name) ∧
      ∀ pattern, argument = some pattern ->
        ∃ input, payload.data.lookup "tool_input" = some (.str input) ∧
          AgentLoop.fnmatch input pattern = true

theorem matchDataField_iff {value : Json} {path : List String} {expected : String} :
    matchDataField value path expected = true <-> fieldAt value path = some (.str expected) := by
  induction path generalizing value with
  | nil => cases value <;> simp [matchDataField, fieldAt]
  | cons key path ih =>
    cases value with
    | obj fields =>
      unfold matchDataField fieldAt
      cases fields.lookup key with
      | none => exact iff_of_false Bool.false_ne_true fun found => nomatch found
      | some value => exact ih
    | null | bool _ | int _ | float _ | str _ | arr _ =>
      exact iff_of_false Bool.false_ne_true fun found => nomatch found

variable {payload : HookPayload}

theorem matchInput_iff {pattern : String} {given : Option Json} {found : Bool}
    (answer : matchInput pattern given = .ok found) : found = true <->
      ∃ input, given = some (.str input) ∧ AgentLoop.fnmatch input pattern = true := by
  unfold matchInput at answer
  split at answer
  case h_1 =>
    cases answer
    exact iff_of_false Bool.false_ne_true fun ⟨_, missing, _⟩ => nomatch missing
  case h_2 =>
    cases answer
    exact iff_of_false Bool.false_ne_true fun ⟨_, missing, _⟩ => nomatch missing
  case h_3 input =>
    cases answer
    constructor
    · exact fun matched => ⟨input, rfl, matched⟩
    · rintro ⟨other, same, matched⟩
      cases same
      exact matched
  case h_4 => cases answer

theorem HookPattern.evaluate_iff {pattern : HookPattern} {found : Bool}
    (answer : pattern.evaluate payload = .ok found) : found = true <-> pattern.Holds payload := by
  cases pattern with
  | nothing =>
    cases answer
    exact iff_of_false Bool.false_ne_true id
  | event value =>
    cases answer
    exact beq_iff_eq
  | dataField path expected =>
    cases answer
    exact matchDataField_iff
  | tool name argument =>
    change matchTool payload name argument = .ok found at answer
    unfold matchTool at answer
    unfold Holds
    split at answer
    case h_1 actual named =>
      rw [named]
      split at answer
      case isTrue same =>
        rw [same]
        split at answer
        case h_1 =>
          cases answer
          exact iff_of_true rfl ⟨rfl, fun pattern impossible => nomatch impossible⟩
        case h_2 pattern =>
          rw [matchInput_iff answer]
          constructor
          · exact fun matched => ⟨rfl, fun other same => Option.some.inj same ▸ matched⟩
          · exact fun both => both.2 pattern rfl
      case isFalse different =>
        cases answer
        refine iff_of_false Bool.false_ne_true ?_
        exact fun both => different (Json.str.inj (Option.some.inj both.1))
    case h_2 unnamed =>
      cases answer
      exact iff_of_false Bool.false_ne_true fun both => unnamed name both.1

section Meaning

variable {isWord : Char -> Bool}

def Says (isWord : Char -> Bool) (payload : HookPayload) (pattern : String) : Prop :=
  if (patternOf isWord pattern).1 then Not ((patternOf isWord pattern).2.Holds payload)
  else (patternOf isWord pattern).2.Holds payload

theorem matchSingle_iff {pattern : String} {found : Bool}
    (answer : matchSingle isWord pattern payload = .ok found) :
    found = true <-> Says isWord payload pattern := by
  unfold matchSingle at answer
  unfold Says
  cases evaluated : (patternOf isWord pattern).2.evaluate payload with
  | error error =>
    rw [evaluated] at answer
    cases answer
  | ok held =>
    rw [evaluated] at answer
    cases answer
    rw [← HookPattern.evaluate_iff evaluated]
    cases (patternOf isWord pattern).1 <;> cases held <;> decide

theorem matchAny_iff {patterns : List String} {found : Bool}
    (answer : matchAny isWord payload patterns = .ok found) :
    found = true <-> ∃ pattern ∈ patterns, Says isWord payload pattern := by
  induction patterns with
  | nil =>
    cases answer
    exact iff_of_false Bool.false_ne_true fun ⟨_, member, _⟩ => nomatch member
  | cons first rest ih =>
    unfold matchAny at answer
    cases single : matchSingle isWord first payload with
    | error error =>
      rw [single] at answer
      cases answer
    | ok matched =>
      rw [single] at answer
      have here := matchSingle_iff single
      cases matched with
      | true =>
        cases answer
        exact iff_of_true rfl ⟨first, List.mem_cons_self, here.mp rfl⟩
      | false =>
        rw [ih answer]
        have missing : Not (Says isWord payload first) := fun said => Bool.false_ne_true (here.mpr said)
        simp [missing]

theorem matchesCondition_iff {condition : Option HookCondition} {found : Bool}
    (answer : matchesCondition isWord condition payload = .ok found) : found = true <->
      (∀ pattern, condition = some (.pattern pattern) -> Says isWord payload pattern) ∧
        ∀ patterns, condition = some (.anyOf patterns) ->
          ∃ pattern ∈ patterns, Says isWord payload pattern := by
  rcases condition with _ | pattern | patterns
  · cases answer
    refine iff_of_true rfl ⟨?_, ?_⟩
    · intro pattern impossible
      cases impossible
    · intro patterns impossible
      cases impossible
  · rw [matchSingle_iff answer]
    simp
  · rw [matchAny_iff answer]
    simp

end Meaning

end Hooks
end BreadMind
