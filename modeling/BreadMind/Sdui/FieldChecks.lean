import BreadMind.Execution.Checks
import BreadMind.Sdui.Coercions
import BreadMind.Settings.Schema

namespace BreadMind
namespace Sdui

open Execution
open Settings (Failure)

/-!
# Checks

A check returns the cleaned value or refuses the value with a message.  Some
values make it raise something else, which the callers do not catch: those are
fatal to it.  What it has cleaned it returns as it is.

The two laws are part of a check, and the ways to put checks together carry
them along: the fields of an object, the items of a list and the entries of a
dictionary.
-/

abbrev Checked (Value : Type) := Except Failure Value

def refuse {Value : Type} (message : String) : Checked Value :=
  .error (.validation message)

/-- What `uuid.uuid4()` returns for the items of a list. -/
abbrev Draws := Nat -> UUID

def Raises {Value : Type} (checked : Checked Value) : Prop :=
  ∃ error, checked = .error (.raised error)

structure Check where
  run : Draws -> JsonValue -> Checked JsonValue
  isFatal : Draws -> JsonValue -> Bool
  idempotent : ∀ draws value cleaned, run draws value = .ok cleaned ->
    ∀ others, run others cleaned = .ok cleaned
  raises_iff : ∀ draws value, Raises (run draws value) <-> isFatal draws value = true

/-- What comes after a check is looked at if the check has returned. -/
def onceChecked {Value : Type} (checked : Checked Value) (later : Value -> Bool) : Bool :=
  match checked with
  | .ok value => later value
  | .error _ => false

section Laws

variable {Value Result : Type}

theorem not_raises_ok (value : Value) : Not (Raises (.ok value : Checked Value)) := by
  rintro ⟨error, impossible⟩
  cases impossible

theorem not_raises_refuse (message : String) : Not (Raises (refuse message : Checked Value)) := by
  rintro ⟨error, impossible⟩
  cases impossible

variable {first : Checked Value} {next : Value -> Checked Result}

theorem raises_bind : Raises (first >>= next) <->
      Raises first ∨ ∃ value, first = .ok value ∧ Raises (next value) := by
  cases first with
  | ok value =>
    constructor
    · exact fun raises => .inr ⟨value, rfl, raises⟩
    · rintro (raises | ⟨same, equal, raises⟩)
      · exact absurd raises (not_raises_ok value)
      · cases equal
        exact raises
  | error failure =>
    constructor
    · rintro ⟨error, raised⟩
      cases raised
      exact .inl ⟨error, rfl⟩
    · rintro (⟨error, raised⟩ | ⟨value, impossible, _⟩)
      · cases raised
        exact ⟨error, rfl⟩
      · cases impossible

theorem raises_bind_left
    (never : ∀ value, Not (Raises (next value))) : Raises (first >>= next) <-> Raises first := by
  rw [raises_bind]
  exact or_iff_left fun ⟨value, _, raises⟩ => never value raises

theorem raises_bind_iff {fatal : Bool}
    {later : Value -> Bool} (here : Raises first <-> fatal = true)
    (there : ∀ value, Raises (next value) <-> later value = true) : Raises (first >>= next) <->
      (fatal || onceChecked first later) = true := by
  rw [raises_bind, Bool.or_eq_true, here]
  refine or_congr_right ?_
  cases first with
  | ok value =>
    constructor
    · rintro ⟨same, equal, raises⟩
      cases equal
      exact (there value).mp raises
    · exact fun isFatal => ⟨value, rfl, (there value).mpr isFatal⟩
  | error failure =>
    constructor
    · rintro ⟨value, impossible, _⟩
      cases impossible
    · exact fun impossible => nomatch impossible

end Laws

/-- A float in the source, with the text which messages show of it. -/
structure FloatLiteral where
  value : Rat
  text : String

namespace Check

/-- The value is cleaned or refused, and what is clean already is left as it is. -/
def cleaning (clean : JsonValue -> Except String JsonValue)
    (settled : ∀ value cleaned, clean value = .ok cleaned -> clean cleaned = .ok cleaned) :
    Check where
  run _ value :=
    match clean value with
    | .ok cleaned => .ok cleaned
    | .error message => refuse message
  isFatal _ _ := false
  idempotent := by
    intro _ value cleaned returned _
    cases answer : clean value with
    | error message =>
      rw [answer] at returned
      cases returned
    | ok value =>
      rw [answer] at returned
      cases returned
      rw [settled _ _ answer]
  raises_iff := by
    intro _ value
    cases clean value with
    | error message => simp [not_raises_refuse]
    | ok cleaned => simp [not_raises_ok]

/-- The value is returned as it is, unless there is something to say against it. -/
def test (refusal : JsonValue -> Option String) : Check :=
  cleaning
    (fun value =>
      match refusal value with
      | some message => .error message
      | none => .ok value)
    (by
      intro value cleaned returned
      cases refused : refusal value with
      | some message =>
        rw [refused] at returned
        cases returned
      | none =>
        rw [refused] at returned
        cases returned
        rw [refused])

variable (message : String)

def string : Check :=
  test fun
    | .str _ => none
    | _ => some message

def nonEmptyString : Check :=
  test fun
    | .str text => if text = "" then some message else none
    | _ => some message

def stringOrNull : Check :=
  test fun
    | .str _ => none
    | .null => none
    | _ => some message

def boolean : Check :=
  test fun
    | .bool _ => none
    | _ => some message

def anything : Check :=
  test fun _ => none

variable (choices : List String)

/-- `value not in choices`, which takes the hash of the value. -/
def member (message : String) (value : JsonValue) : Checked JsonValue :=
  match value with
  | .arr _ => .error (.raised (.typeError "unhashable type: 'list'"))
  | .obj _ => .error (.raised (.typeError "unhashable type: 'dict'"))
  | .str text => if choices.contains text then .ok (.str text) else refuse message
  | _ => refuse message

theorem member_eq_ok {choices : List String} {message : String} {value cleaned : JsonValue} :
    member choices message value = .ok cleaned <->
      value = cleaned ∧ ∃ text, cleaned = .str text ∧ choices.contains text = true := by
  cases value with
  | str text =>
    by_cases among : choices.contains text = true
    · simp only [member, among, if_true, Except.ok.injEq]
      exact ⟨fun same => ⟨same, text, same.symm, among⟩, And.left⟩
    · simp only [member, among, Bool.false_eq_true, if_false]
      refine iff_of_false nofun ?_
      rintro ⟨rfl, other, same, there⟩
      cases same
      exact among there
  | null | bool value | int value | float value | arr items | obj fields =>
    exact iff_of_false nofun fun ⟨same, _, text, _⟩ => nomatch same.trans text

def oneOf (message : String) : Check where
  run _ := member choices message
  isFatal _ := JsonValue.isUnhashable
  idempotent := by
    intro _ value cleaned returned _
    exact member_eq_ok.mpr ⟨rfl, (member_eq_ok.mp returned).2⟩
  raises_iff := by
    intro _ value
    cases value with
    | str text =>
      by_cases among : choices.contains text = true
      · simp only [member, among, if_true, not_raises_ok, JsonValue.isUnhashable, Bool.false_eq_true]
      · simp only [member, among, Bool.false_eq_true, if_false, not_raises_refuse,
          JsonValue.isUnhashable]
    | arr items => exact iff_of_true ⟨_, rfl⟩ rfl
    | obj fields => exact iff_of_true ⟨_, rfl⟩ rfl
    | null | bool value | int value | float value =>
      simp [member, not_raises_refuse, JsonValue.isUnhashable]

/-! ## Texts that stand for something else -/

def strip (text : List Char) : List Char :=
  (text.dropWhile isSpace).rdropWhile isSpace

/-- `str.lower`, as far as it leads into ASCII: besides the capitals, the Kelvin sign does. -/
def lower (letter : Char) : Char :=
  if letter = '\u212A' then 'k' else letter.toLower

/-- `str.upper`, as far as it leads into ASCII; the long s, the dotless i, the sharp s and the
ligatures do. -/
def upper (letter : Char) : List Char :=
  match letter with
  | '\u0131' => ['I']
  | '\u017F' => ['S']
  | '\u00DF' => ['S', 'S']
  | '\uFB00' => ['F', 'F']
  | '\uFB01' => ['F', 'I']
  | '\uFB02' => ['F', 'L']
  | '\uFB03' => ['F', 'F', 'I']
  | '\uFB04' => ['F', 'F', 'L']
  | '\uFB05' => ['S', 'T']
  | '\uFB06' => ['S', 'T']
  | other => [other.toUpper]

variable (field : String)

def coerceBool (value : JsonValue) : Except String JsonValue :=
  match value with
  | .bool value => .ok (.bool value)
  | .str text =>
    let s := String.ofList ((strip text.toList).map lower)
    if ["true", "1", "yes", "on"].contains s then .ok (.bool true)
    else if ["false", "0", "no", "off"].contains s then .ok (.bool false)
    else .error (field ++ " must be bool")
  | _ => .error (field ++ " must be bool")

theorem coerceBool_eq_ok {field : String} {value cleaned : JsonValue}
    (returned : coerceBool field value = .ok cleaned) : ∃ bit, cleaned = .bool bit := by
  unfold coerceBool at returned
  split at returned
  · cases returned
    exact ⟨_, rfl⟩
  · dsimp only at returned
    split at returned
    · cases returned
      exact ⟨_, rfl⟩
    · split at returned
      · cases returned
        exact ⟨_, rfl⟩
      · cases returned
  · cases returned

def bool : Check :=
  cleaning (coerceBool field) fun _ _ returned =>
    match coerceBool_eq_ok returned with
    | ⟨_, same⟩ => same ▸ rfl

def upperCase (text : String) : String :=
  String.ofList ((strip text.toList).flatMap upper)

/-- A text whose upper case is one of the choices, which are their own. -/
def upperOneOf (notString notAmong : String)
    (settled : ∀ choice ∈ choices, upperCase choice = choice) : Check :=
  cleaning
    (fun value =>
      match value with
      | .str text =>
        if choices.contains (upperCase text) then .ok (.str (upperCase text)) else .error notAmong
      | _ => .error notString)
    (by
      intro value cleaned returned
      split at returned
      · split at returned
        · rename_i text among
          cases returned
          have same := settled _ (List.contains_iff_mem.mp among)
          dsimp only
          rw [same, if_pos among]
        · cases returned
      · cases returned)

theorem uuid_text_ne (id : UUID) : id.text ≠ "" := by
  intro empty
  have length := congrArg (fun text => text.toList.length) empty
  simp [UUID.text, UUID.length_chars] at length

/-- `value or str(uuid.uuid4())`. -/
def orDrawn (index : Nat) : Check where
  run draws value := .ok (if value.truthy then value else .str (draws index).text)
  isFatal _ _ := false
  idempotent := by
    intro draws value cleaned returned others
    cases returned
    by_cases given : value.truthy = true
    · simp [given]
    · have drawn : (JsonValue.str (draws index).text).truthy = true :=
        decide_eq_true (uuid_text_ne _)
      simp [given, drawn]
  raises_iff := by
    intro _ value
    simp [not_raises_ok]

/-- `try: int(value) except (TypeError, ValueError): raise SettingsValidationError(...)`. -/
def refusing {Value : Type} : Except PyError Value -> Checked Value
  | .ok value => .ok value
  | .error error => if isTypeOrValueError error then refuse message else .error (.raised error)

theorem raises_refusing {Value : Type} {message : String} (converted : Except PyError Value) :
    Raises (refusing message converted) <->
      ∃ error, converted = .error error ∧ isTypeOrValueError error = false := by
  cases converted with
  | ok value => simp [refusing, not_raises_ok]
  | error error =>
    by_cases caught : isTypeOrValueError error = true
    · simp [refusing, caught, not_raises_refuse]
    · simp only [refusing, caught, Bool.false_eq_true, if_false]
      exact iff_of_true ⟨error, rfl⟩ ⟨error, rfl, Bool.eq_false_iff.mpr caught⟩

/-- A conversion that may get past its `except`, and what is said against the number. -/
def converted {Number : Type} (convert : JsonValue -> Except PyError Number)
    (back : Number -> JsonValue) (notNumber : String) (refusal : Number -> Option String)
    (value : JsonValue) : Checked JsonValue := do
  let number <- refusing notNumber (convert value)
  match refusal number with
  | some message => refuse message
  | none => .ok (back number)

def conversion {Number : Type} (convert : JsonValue -> Except PyError Number)
    (back : Number -> JsonValue) (notNumber : String) (refusal : Number -> Option String)
    (fatal : JsonValue -> Bool) (again : ∀ number, convert (back number) = .ok number)
    (uncaught : ∀ value, (∃ error, convert value = .error error ∧
      isTypeOrValueError error = false) <-> fatal value = true) : Check where
  run _ := converted convert back notNumber refusal
  isFatal _ := fatal
  idempotent := by
    intro _ value cleaned returned _
    unfold converted at returned ⊢
    rcases bind_eq_ok.mp returned with ⟨number, _, kept⟩
    cases refused : refusal number with
    | some message =>
      rw [refused] at kept
      cases kept
    | none =>
      rw [refused] at kept
      cases kept
      rw [again number]
      change (match refusal number with | some message => refuse message | none => _) = _
      rw [refused]
  raises_iff := by
    intro _ value
    rw [← uncaught, ← raises_refusing]
    refine raises_bind_left fun number => ?_
    cases refusal number with
    | some message => exact not_raises_refuse message
    | none => exact not_raises_ok _

def intAtLeast (lo : Int) (notInt tooSmall : String) : Check :=
  conversion toInt .int notInt (fun number => if number < lo then some tooSmall else none)
    JsonValue.isInfinite (fun _ => rfl) toInt_uncaught

def intInRange (lo hi : Int) : Check :=
  conversion toInt .int (field ++ " must be int")
    (fun number =>
      if lo ≤ number ∧ number ≤ hi then none
      else some (field ++ " must be between " ++ toString lo ++ " and " ++ toString hi))
    JsonValue.isInfinite (fun _ => rfl) toInt_uncaught

def floatInRange (lo hi : FloatLiteral) : Check :=
  conversion toFloat .float (field ++ " must be a number")
    (fun number =>
      if (Double.ofRat lo.value).le number ∧ number.le (Double.ofRat hi.value) then none
      else some (field ++ " must be between " ++ lo.text ++ " and " ++ hi.text))
    JsonValue.isHuge (fun _ => rfl) toFloat_uncaught

end Check

/-! ## The fields of an object -/

/-- A field, with what `get` gives when it is missing; without that a missing field is left out. -/
structure Field where
  name : String
  check : Check
  fallback : Option JsonValue := none

namespace Field

def read (field : Field) (data : List (String × JsonValue)) : Option JsonValue :=
  (data.lookup field.name).or field.fallback

def runAll (draws : Draws) (data : List (String × JsonValue)) :
    List Field -> Checked (List (String × JsonValue))
  | [] => .ok []
  | field :: rest =>
    match field.read data with
    | none => runAll draws data rest
    | some value => do
      let cleaned <- field.check.run draws value
      let out <- runAll draws data rest
      .ok ((field.name, cleaned) :: out)

def anyFatal (draws : Draws) (data : List (String × JsonValue)) : List Field -> Bool
  | [] => false
  | field :: rest =>
    match field.read data with
    | none => anyFatal draws data rest
    | some value =>
      field.check.isFatal draws value ||
        onceChecked (field.check.run draws value) fun _ => anyFatal draws data rest

variable {draws : Draws} {data : List (String × JsonValue)}

theorem raises_runAll (fields : List Field) :
    Raises (runAll draws data fields) <-> anyFatal draws data fields = true := by
  induction fields with
  | nil => simp [runAll, anyFatal, not_raises_ok]
  | cons field rest ih =>
    unfold runAll anyFatal
    cases field.read data with
    | none => exact ih
    | some value =>
      refine raises_bind_iff (field.check.raises_iff draws value) fun cleaned => ?_
      rw [raises_bind_left fun out => not_raises_ok _]
      exact ih

theorem names_runAll {fields : List Field} {out : List (String × JsonValue)}
    (returned : runAll draws data fields = .ok out) :
    ∀ entry ∈ out, entry.1 ∈ fields.map Field.name := by
  induction fields generalizing out with
  | nil =>
    cases returned
    exact fun _ absent => nomatch absent
  | cons field rest ih =>
    unfold runAll at returned
    cases found : field.read data with
    | none =>
      rw [found] at returned
      exact fun entry member => List.mem_cons_of_mem _ (ih returned entry member)
    | some value =>
      rw [found] at returned
      rcases bind_eq_ok.mp returned with ⟨cleaned, _, later⟩
      rcases bind_eq_ok.mp later with ⟨more, cleaned_, same⟩
      cases same
      intro entry member
      rcases List.mem_cons.mp member with rfl | old
      · exact List.mem_cons_self
      · exact List.mem_cons_of_mem _ (ih cleaned_ entry old)

theorem runAll_again {fields : List Field} {out : List (String × JsonValue)}
    (distinct : (fields.map Field.name).Nodup) (returned : runAll draws data fields = .ok out)
    {others : Draws} {again : List (String × JsonValue)}
    (same : ∀ field ∈ fields, again.lookup field.name = out.lookup field.name) :
    runAll others again fields = .ok out := by
  induction fields generalizing out with
  | nil => exact returned
  | cons field rest ih =>
    have apart := List.nodup_cons.mp distinct
    rw [List.forall_mem_cons] at same
    unfold runAll at returned ⊢
    cases found : field.read data with
    | none =>
      rw [found] at returned
      have absent : out.lookup field.name = none := by
        refine List.lookup_eq_none_iff.mpr fun entry member => ?_
        refine bne_iff_ne.mpr fun here => apart.1 ?_
        exact here ▸ names_runAll returned entry member
      have unread : field.read again = none := by
        unfold read at found ⊢
        rw [same.1, absent]
        exact (Option.or_eq_none_iff.mp found).2
      rw [unread]
      exact ih apart.2 returned same.2
    | some value =>
      rw [found] at returned
      rcases bind_eq_ok.mp returned with ⟨cleaned, ran, later⟩
      rcases bind_eq_ok.mp later with ⟨more, rest_, equal⟩
      cases equal
      have reads : field.read again = some cleaned := by
        unfold read
        rw [same.1, List.lookup_cons_self]
        rfl
      have later : runAll others again rest = .ok more := by
        refine ih apart.2 rest_ fun other member => ?_
        have different : (other.name == field.name) = false := by
          refine beq_eq_false_iff_ne.mpr fun same => apart.1 ?_
          exact same ▸ List.mem_map_of_mem member
        rw [same.2 other member, List.lookup_cons, different]
      rw [reads]
      exact bind_eq_ok.mpr ⟨cleaned, field.check.idempotent draws value cleaned ran others,
        bind_eq_ok.mpr ⟨more, later, rfl⟩⟩

end Field

namespace Check

variable {draws : Draws}

variable (notObject : String)

def runObject (whenEmpty : Option String) (fields : List Field) (draws : Draws) :
    JsonValue -> Checked JsonValue
  | .obj data => do
    let out <- Field.runAll draws data fields
    match out, whenEmpty with
    | [], some message => refuse message
    | _, _ => .ok (.obj out)
  | _ => refuse notObject

theorem runObject_eq_ok {notObject : String} {whenEmpty : Option String} {fields : List Field}
    {value cleaned : JsonValue} : runObject notObject whenEmpty fields draws value = .ok cleaned <->
      ∃ data out, value = .obj data ∧ cleaned = .obj out ∧
        Field.runAll draws data fields = .ok out ∧ (out = [] -> whenEmpty = none) := by
  have refused : ∀ message, (refuse message : Checked JsonValue) ≠ .ok cleaned := nofun
  constructor
  · intro returned
    unfold runObject at returned
    split at returned
    · rename_i data
      rcases bind_eq_ok.mp returned with ⟨out, ran, kept⟩
      split at kept
      · exact absurd kept (refused _)
      · rename_i some_
        refine ⟨data, out, rfl, (Except.ok.inj kept).symm, ran, fun empty => ?_⟩
        exact Option.eq_none_iff_forall_ne_some.mpr fun message same => some_ message empty same
    · exact absurd returned (refused _)
  · rintro ⟨data, out, rfl, rfl, ran, kept⟩
    refine bind_eq_ok.mpr ⟨out, ran, ?_⟩
    split
    · rename_i message
      cases kept rfl
    · rfl

/-- An object of which the given fields are kept, and which may have to have one of them. -/
def object (whenEmpty : Option String) (fields : List Field)
    (distinct : (fields.map Field.name).Nodup) : Check where
  run := runObject notObject whenEmpty fields
  isFatal draws value :=
    match value with
    | .obj data => Field.anyFatal draws data fields
    | _ => false
  idempotent := by
    intro draws value cleaned returned others
    rcases runObject_eq_ok.mp returned with ⟨data, out, rfl, rfl, ran, kept⟩
    have again := @Field.runAll_again _ _ _ _ distinct ran others out fun _ _ => rfl
    exact runObject_eq_ok.mpr ⟨out, out, rfl, rfl, again, kept⟩
  raises_iff := by
    intro draws value
    cases value with
    | obj data =>
      unfold runObject
      rw [← Field.raises_runAll]
      refine raises_bind_left fun out => ?_
      split
      · exact not_raises_refuse _
      · exact not_raises_ok _
    | null | bool value | int value | float value | str text | arr items =>
      simp [runObject, not_raises_refuse]

/-! ## The items of a list -/

def nameOf : JsonValue -> String
  | .obj fields =>
    match fields.lookup "name" with
    | some (.str name) => name
    | _ => ""
  | _ => ""

/-- The check of an item depends on its place and on the names of the items before it. -/
def runItems (item : Nat -> List String -> Check) (draws : Draws) :
    Nat -> List String -> List JsonValue -> Checked (List JsonValue)
  | _, _, [] => .ok []
  | index, seenNames, value :: rest => do
    let cleaned <- (item index seenNames).run draws value
    let out <- runItems item draws (index + 1) (seenNames ++ [nameOf cleaned]) rest
    .ok (cleaned :: out)

def anyItemFatal (item : Nat -> List String -> Check) (draws : Draws) :
    Nat -> List String -> List JsonValue -> Bool
  | _, _, [] => false
  | index, seenNames, value :: rest =>
    (item index seenNames).isFatal draws value ||
      onceChecked ((item index seenNames).run draws value) fun cleaned =>
        anyItemFatal item draws (index + 1) (seenNames ++ [nameOf cleaned]) rest

variable {item : Nat -> List String -> Check}

theorem raises_runItems (values : List JsonValue) : ∀ index seenNames,
    Raises (runItems item draws index seenNames values) <->
      anyItemFatal item draws index seenNames values = true := by
  induction values with
  | nil => simp [runItems, anyItemFatal, not_raises_ok]
  | cons value rest ih =>
    intro index seenNames
    refine raises_bind_iff ((item index seenNames).raises_iff draws value) fun cleaned => ?_
    rw [raises_bind_left fun out => not_raises_ok _]
    exact ih (index + 1) _

theorem runItems_again {values : List JsonValue} : ∀ {index seenNames out},
    runItems item draws index seenNames values = .ok out ->
      ∀ others, runItems item others index seenNames out = .ok out := by
  induction values with
  | nil =>
    intro _ _ out returned _
    cases returned
    rfl
  | cons value rest ih =>
    intro index seenNames out returned others
    rcases bind_eq_ok.mp returned with ⟨cleaned, ran, later⟩
    rcases bind_eq_ok.mp later with ⟨more, rest_, same⟩
    cases same
    exact bind_eq_ok.mpr ⟨cleaned, (item index seenNames).idempotent draws value cleaned ran others,
      bind_eq_ok.mpr ⟨more, ih rest_ others, rfl⟩⟩

def list (notList : String) (item : Nat -> List String -> Check) : Check where
  run draws value :=
    match value with
    | .arr items => do
      let out <- runItems item draws 0 [] items
      .ok (.arr out)
    | _ => refuse notList
  isFatal draws value :=
    match value with
    | .arr items => anyItemFatal item draws 0 [] items
    | _ => false
  idempotent := by
    intro draws value cleaned returned others
    split at returned
    · rcases bind_eq_ok.mp returned with ⟨out, ran, same⟩
      cases same
      exact bind_eq_ok.mpr ⟨out, runItems_again ran others, rfl⟩
    · cases returned
  raises_iff := by
    intro draws value
    cases value with
    | arr items =>
      dsimp only
      rw [raises_bind_left fun out => not_raises_ok _, raises_runItems]
    | null | bool value | int value | float value | str text | obj fields =>
      simp [not_raises_refuse]

def strings (message : String) : Check :=
  list message fun _ _ => string message

def runEntries (value : String -> Check) (draws : Draws) :
    List (String × JsonValue) -> Checked (List (String × JsonValue))
  | [] => .ok []
  | entry :: rest => do
    let cleaned <- (value entry.1).run draws entry.2
    let out <- runEntries value draws rest
    .ok ((entry.1, cleaned) :: out)

def anyEntryFatal (value : String -> Check) (draws : Draws) : List (String × JsonValue) -> Bool
  | [] => false
  | entry :: rest =>
    (value entry.1).isFatal draws entry.2 ||
      onceChecked ((value entry.1).run draws entry.2) fun _ => anyEntryFatal value draws rest

variable {value : String -> Check}

theorem raises_runEntries (data : List (String × JsonValue)) :
    Raises (runEntries value draws data) <-> anyEntryFatal value draws data = true := by
  induction data with
  | nil => simp [runEntries, anyEntryFatal, not_raises_ok]
  | cons entry rest ih =>
    refine raises_bind_iff ((value entry.1).raises_iff draws entry.2) fun cleaned => ?_
    rw [raises_bind_left fun out => not_raises_ok _]
    exact ih

theorem runEntries_again {data : List (String × JsonValue)} : ∀ {out},
    runEntries value draws data = .ok out -> ∀ others, runEntries value others out = .ok out := by
  induction data with
  | nil =>
    intro out returned _
    cases returned
    rfl
  | cons entry rest ih =>
    intro out returned others
    rcases bind_eq_ok.mp returned with ⟨cleaned, ran, later⟩
    rcases bind_eq_ok.mp later with ⟨more, rest_, same⟩
    cases same
    exact bind_eq_ok.mpr ⟨cleaned, (value entry.1).idempotent draws entry.2 cleaned ran others,
      bind_eq_ok.mpr ⟨more, ih rest_ others, rfl⟩⟩

def entries (value : String -> Check) : Check where
  run draws given :=
    match given with
    | .obj data => do
      let out <- runEntries value draws data
      .ok (.obj out)
    | _ => refuse notObject
  isFatal draws given :=
    match given with
    | .obj data => anyEntryFatal value draws data
    | _ => false
  idempotent := by
    intro draws given cleaned returned others
    split at returned
    · rcases bind_eq_ok.mp returned with ⟨out, ran, same⟩
      cases same
      exact bind_eq_ok.mpr ⟨out, runEntries_again ran others, rfl⟩
    · cases returned
  raises_iff := by
    intro draws given
    cases given with
    | obj data =>
      dsimp only
      rw [raises_bind_left fun out => not_raises_ok _, raises_runEntries]
    | null | bool value | int value | float value | str text | arr items => simp [not_raises_refuse]

end Check
end Sdui
end BreadMind
