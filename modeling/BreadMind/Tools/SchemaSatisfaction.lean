import BreadMind.Tools.SchemaValidator

namespace BreadMind

/-!
# What satisfies a schema

The validator is right about the keywords that it reads.  It does not read all
of them everywhere, and it compares allowed values the way Python does; so it
accepts arguments which do not satisfy their schema exactly where nothing that
it reads is violated and something that it does not read is.  And it only gets to an
answer where the objects are not nested deeper than the frames of the interpreter go.
-/

/-! ## Comparing values the way a schema does -/

namespace Json

mutual

/-- Numbers are compared by their value; truth values are not numbers. -/
def sameValue : Json -> Json -> Bool
  | .null, .null => true
  | .bool first, .bool second => first == second
  | .str first, .str second => first == second
  | .arr first, .arr second => sameItems first second
  | .obj first, .obj second => first.length == second.length && sameFields first second
  | .int first, second => some (first : Rat) == Tools.SchemaValidator.numeric second
  | .float first, second => some first == Tools.SchemaValidator.numeric second
  | _, _ => false

def sameItems : List Json -> List Json -> Bool
  | [], [] => true
  | first :: rest, second :: more => sameValue first second && sameItems rest more
  | _, _ => false

def sameFields : List (String × Json) -> List (String × Json) -> Bool
  | [], _ => true
  | (name, value) :: rest, fields =>
    (match fields.lookup name with
      | some other => sameValue value other
      | none => false) && sameFields rest fields

end

theorem number_of_numeric {value : Json} {number : Rat}
    (found : Tools.SchemaValidator.numeric value = some number) : value.number = some number := by
  cases value <;> first | exact found | cases found

mutual

theorem pyEq_of_sameValue : ∀ first second : Json, sameValue first second = true ->
    pyEq first second = true
  | .null, .null, _ => by unfold pyEq; rfl
  | .bool first, .bool second, same => by
    unfold sameValue at same
    unfold pyEq
    rw [beq_iff_eq.mp same]
    exact beq_self_eq_true _
  | .str first, .str second, same => by
    unfold sameValue at same
    unfold pyEq
    exact same
  | .arr first, .arr second, same => by
    unfold sameValue at same
    unfold pyEq
    exact pyEqItems_of_sameItems first second same
  | .obj first, .obj second, same => by
    unfold sameValue at same
    unfold pyEq
    rw [Bool.and_eq_true] at same ⊢
    exact ⟨same.1, pyEqFields_of_sameFields first second same.2⟩
  | .int first, second, same => by
    unfold sameValue at same
    unfold pyEq
    rw [number_of_numeric (beq_iff_eq.mp same).symm]
    exact beq_self_eq_true _
  | .float first, second, same => by
    unfold sameValue at same
    unfold pyEq
    rw [number_of_numeric (beq_iff_eq.mp same).symm]
    exact beq_self_eq_true _

theorem pyEqItems_of_sameItems : ∀ first second : List Json, sameItems first second = true ->
    pyEqItems first second = true
  | [], [], _ => by unfold pyEqItems; rfl
  | first :: rest, second :: more, same => by
    unfold sameItems at same
    unfold pyEqItems
    rw [Bool.and_eq_true] at same ⊢
    exact ⟨pyEq_of_sameValue first second same.1, pyEqItems_of_sameItems rest more same.2⟩

theorem pyEqFields_of_sameFields : ∀ first second : List (String × Json),
    sameFields first second = true -> pyEqFields first second = true
  | [], _, _ => by unfold pyEqFields; rfl
  | (name, value) :: rest, fields, same => by
    unfold sameFields at same
    unfold pyEqFields
    rw [Bool.and_eq_true] at same ⊢
    refine ⟨?_, pyEqFields_of_sameFields rest fields same.2⟩
    cases found : fields.lookup name with
    | none => rw [found] at same; exact same.1
    | some other =>
      rw [found] at same
      exact pyEq_of_sameValue value other same.1

end

end Json

namespace Tools
namespace SchemaValidator

open Execution Text

variable (keywords : Keywords)

def LengthKept (value : Json) : Prop :=
  ∀ text, value = .str text ->
    (∀ limit, keywords.minLength = some limit -> limit ≤ text.length) ∧
      (∀ limit, keywords.maxLength = some limit -> text.length ≤ limit)

def RangeKept (value : Json) : Prop :=
  ∀ number, numeric value = some number ->
    (∀ limit, keywords.minimum = some limit -> limit.value ≤ number) ∧
      (∀ limit, keywords.maximum = some limit -> number ≤ limit.value)

/-- The types of a schema; an integer is a number that is written without a fraction. -/
inductive HasType : Json -> SchemaType -> Prop where
  | string (text : String) : HasType (.str text) .string
  | integer (number : Int) : HasType (.int number) .integer
  | whole (number : Int) : HasType (.int number) .number
  | fraction (number : Rat) : HasType (.float number) .number
  | boolean (truth : Bool) : HasType (.bool truth) .boolean
  | array (items : List Json) : HasType (.arr items) .array
  | object (fields : List (String × Json)) : HasType (.obj fields) .object

def TypeKept (value : Json) : Prop :=
  ∀ expected, keywords.type = some expected -> HasType value expected

/-- The value has all that the schema says of it itself. -/
structure Own (value : Json) : Prop where
  type : TypeKept keywords value
  enum : ∀ allowed, keywords.enum = some allowed ->
    ∃ item ∈ allowed, value.sameValue item = true
  length : LengthKept keywords value
  range : RangeKept keywords value

/-- What the validator reads of it. -/
structure OwnRead (value : Json) : Prop where
  type : TypeKept keywords value
  enum : ∀ allowed, keywords.enum = some allowed ->
    ∃ item, item ∈ allowed ∧ value.pyEq item = true
  length : keywords.type = some .string -> LengthKept keywords value
  range : numericType keywords.type = true -> RangeKept keywords value

/-- What it does not read: whether an allowed value is only equal for Python, and
the bounds of a text or a number for which no such type is declared. -/
structure OwnUnread (value : Json) : Prop where
  enum : ∀ allowed, keywords.enum = some allowed ->
    (∃ item ∈ allowed, value.pyEq item = true) ->
      ∃ item, item ∈ allowed ∧ value.sameValue item = true
  length : keywords.type ≠ some .string -> LengthKept keywords value
  range : numericType keywords.type = false -> RangeKept keywords value

variable {value : Json}

theorem own_iff {keywords : Keywords} :
    Own keywords value <-> OwnRead keywords value ∧ OwnUnread keywords value := by
  constructor
  · intro own
    refine ⟨⟨own.type, fun allowed given => ?_, fun _ => own.length, fun _ => own.range⟩,
      ⟨fun allowed given _ => own.enum allowed given, fun _ => own.length, fun _ => own.range⟩⟩
    rcases own.enum allowed given with ⟨item, member, same⟩
    exact ⟨item, member, Json.pyEq_of_sameValue value item same⟩
  · rintro ⟨read, unread⟩
    refine ⟨read.type, fun allowed given => unread.enum allowed given (read.enum allowed given), ?_, ?_⟩
    · by_cases text : keywords.type = some .string
      · exact read.length text
      · exact unread.length text
    · cases number : numericType keywords.type with
      | true => exact read.range number
      | false => exact unread.range number

/-- The required members are there, and no others than are allowed. -/
structure Members (schema : Schema) (fields : Dict String Json) : Prop where
  required : ∀ name ∈ schema.keywords.required, name ∈ fields.keys
  known : schema.keywords.additionalProperties = some false -> ∀ name ∈ fields.keys,
    (schema.property name).isSome = true

/-- The value satisfies the schema at every level. -/
inductive Satisfies : Schema -> Json -> Prop where
  | mk {schema : Schema} {value : Json} (own : Own schema.keywords value)
      (members : ∀ fields, value = .obj fields -> Members schema fields)
      (inside : ∀ fields name inner sub, value = .obj fields -> (name, inner) ∈ fields ->
        schema.property name = some sub -> Satisfies sub inner) : Satisfies schema value

/-- Nothing is violated that the validator reads. -/
inductive Checked : Schema -> Json -> Prop where
  | mk {schema : Schema} {value : Json} (own : OwnRead schema.keywords value)
      (members : descends schema = true -> ∀ fields, value = .obj fields -> Members schema fields)
      (inside : descends schema = true -> ∀ fields name inner sub, value = .obj fields ->
        (name, inner) ∈ fields -> schema.property name = some sub -> Checked sub inner) :
      Checked schema value

/-- Nothing is violated that it does not read; besides the own keywords these are
the members of an object whose schema does not declare both the type and the
properties. -/
inductive Unread : Schema -> Json -> Prop where
  | mk {schema : Schema} {value : Json} (own : OwnUnread schema.keywords value)
      (members : descends schema = false -> ∀ fields, value = .obj fields -> Members schema fields)
      (closed : descends schema = false -> ∀ fields name inner sub, value = .obj fields ->
        (name, inner) ∈ fields -> schema.property name = some sub -> Satisfies sub inner)
      (inside : descends schema = true -> ∀ fields name inner sub, value = .obj fields ->
        (name, inner) ∈ fields -> schema.property name = some sub -> Unread sub inner) :
      Unread schema value

theorem Satisfies.split {schema : Schema} (satisfies : Satisfies schema value) :
    Checked schema value ∧ Unread schema value := by
  induction satisfies with
  | mk own members inside ih =>
    rcases own_iff.mp own with ⟨read, unread⟩
    refine ⟨.mk read (fun _ => members) fun _ fields name inner sub object member given => ?_,
      .mk unread (fun _ => members) (fun _ => inside)
        fun _ fields name inner sub object member given => ?_⟩
    · exact (ih fields name inner sub object member given).1
    · exact (ih fields name inner sub object member given).2

theorem Checked.join {schema : Schema} (checked : Checked schema value)
    (unread : Unread schema value) : Satisfies schema value := by
  induction checked with
  | @mk schema value own members inside ih =>
    cases unread with
    | mk strict members_ closed inside_ =>
      cases into : descends schema with
      | true =>
        refine .mk (own_iff.mpr ⟨own, strict⟩) (members into)
          fun fields name inner sub object member given => ?_
        exact ih into fields name inner sub object member given
          (inside_ into fields name inner sub object member given)
      | false => exact .mk (own_iff.mpr ⟨own, strict⟩) (members_ into) (closed into)

/-! ## The checks of one place -/

section Checks

variable {printing : Printing} {name : String} {value : Json} {keywords : Keywords}

theorem validateType_iff (expected : SchemaType) :
    validateType value expected = true <-> HasType value expected := by
  constructor
  · intro valid
    cases expected <;> cases value <;> first | (cases valid; constructor) | cases valid
  · intro typed
    cases typed <;> rfl

theorem checkType_eq_nil : checkType name value keywords = [] <-> TypeKept keywords value := by
  unfold checkType TypeKept
  cases keywords.type with
  | none => simp
  | some expected => simp [validateType_iff]

theorem checkEnum_eq_nil : checkEnum printing name value keywords = [] <->
    ∀ allowed, keywords.enum = some allowed -> ∃ item ∈ allowed, value.pyEq item = true := by
  unfold checkEnum
  cases keywords.enum with
  | none => simp
  | some allowed => simp

theorem checkBound_eq_nil {Limit : Type} {expected : String} {message : Limit -> String}
    {kept : Limit -> Bool} {limit : Option Limit} :
    checkBound name value expected message kept limit = [] <->
      ∀ bound, limit = some bound -> kept bound = true := by
  unfold checkBound
  cases limit with
  | none => simp
  | some bound => simp

theorem checkLength_eq_nil : checkLength name value keywords = [] <->
    (keywords.type = some .string -> LengthKept keywords value) := by
  unfold checkLength LengthKept
  split
  case h_1 text declared => simp [checkBound_eq_nil, declared]
  case h_2 other =>
    refine iff_of_true rfl fun declared text same => ?_
    exact absurd same (other text declared)

theorem checkRange_eq_nil : checkRange printing name value keywords = [] <->
    (numericType keywords.type = true -> RangeKept keywords value) := by
  unfold checkRange RangeKept
  split
  case h_1 number declared found => simp [checkBound_eq_nil, declared, found]
  case h_2 other =>
    refine iff_of_true rfl fun declared number found => ?_
    exact absurd found (other number declared)

variable {schema : Schema}

theorem members_eq_nil {fields : Dict String Json} :
    missingFields fields schema ++ unknownFields fields schema = [] <-> Members schema fields := by
  have missing : missingFields fields schema = [] <->
      ∀ name ∈ schema.keywords.required, name ∈ fields.keys := by
    unfold missingFields
    simp
  have unknown : unknownFields fields schema = [] <->
      (schema.keywords.additionalProperties = some false -> ∀ name ∈ fields.keys,
        (schema.property name).isSome = true) := by
    unfold unknownFields
    split
    case isTrue closed =>
      rw [List.map_eq_nil_iff, List.filter_eq_nil_iff]
      constructor
      · intro none_ _ name member
        rcases List.mem_map.mp member with ⟨entry, inside, rfl⟩
        simpa [Option.isSome_iff_ne_none] using none_ entry inside
      · intro all entry inside
        simpa [Option.isSome_iff_ne_none] using all closed entry.1 (List.mem_map_of_mem inside)
    case isFalse open_ => exact iff_of_true rfl fun closed => absurd closed open_
  rw [List.append_eq_nil_iff, missing, unknown]
  exact ⟨fun both => ⟨both.1, both.2⟩, fun members => ⟨members.required, members.known⟩⟩

theorem checked_of_own (plain : ∀ fields, value ≠ .obj fields) :
    Checked schema value <-> OwnRead schema.keywords value := by
  constructor
  · intro checked
    cases checked with
    | mk own => exact own
  · exact fun own => .mk own (fun _ fields object => absurd object (plain fields))
      fun _ fields _ _ _ object => absurd object (plain fields)

theorem ownRead_iff : OwnRead keywords value <->
    checkType name value keywords = [] ∧ checkEnum printing name value keywords = [] ∧
      checkLength name value keywords = [] ∧ checkRange printing name value keywords = [] := by
  rw [checkType_eq_nil, checkEnum_eq_nil, checkLength_eq_nil, checkRange_eq_nil]
  exact ⟨fun own => ⟨own.type, own.enum, own.length, own.range⟩,
    fun all => ⟨all.1, all.2.1, all.2.2.1, all.2.2.2⟩⟩

theorem plain_eq_nil (plain : ∀ fields, value ≠ .obj fields) :
    (if checkType name value schema.keywords ≠ [] then checkType name value schema.keywords
      else checkEnum printing name value schema.keywords ++ checkLength name value schema.keywords ++
        checkRange printing name value schema.keywords) = [] <-> Checked schema value := by
  rw [checked_of_own plain, @ownRead_iff printing name]
  by_cases type : checkType name value schema.keywords = []
  · rw [if_neg (not_not_intro type), List.append_eq_nil_iff, List.append_eq_nil_iff, and_assoc]
    exact (and_iff_right type).symm
  · rw [if_pos type]
    exact iff_of_false type fun all => type all.1

end Checks

/-! ## What is reported when the frames suffice -/

section Validation

variable (printing : Printing)

mutual

def fieldErrors (name : String) (schema : Schema) : Json -> List ValidationError
  | .obj fields =>
    let wrong := checkType name (.obj fields) schema.keywords
    if wrong ≠ [] then wrong
    else
      checkEnum printing name (.obj fields) schema.keywords ++
        if descends schema = true then
          (missingFields fields schema ++ unknownFields fields schema ++
            memberErrors schema fields).map (within name)
        else []
  | value =>
    let wrong := checkType name value schema.keywords
    if wrong ≠ [] then wrong
    else
      checkEnum printing name value schema.keywords ++ checkLength name value schema.keywords ++
        checkRange printing name value schema.keywords

def memberErrors (schema : Schema) : List (String × Json) -> List ValidationError
  | [] => []
  | (name, value) :: rest =>
    (match schema.property name with
      | none => []
      | some inner => fieldErrors name inner value) ++ memberErrors schema rest

end

def report (arguments : Dict String Json) (schema : Schema) : ValidationResult :=
  let errors := missingFields arguments schema ++ unknownFields arguments schema ++
    memberErrors printing schema arguments
  { valid := errors.isEmpty, errors }

mutual

def fieldFrames (schema : Schema) : Json -> Nat
  | .obj fields => if descends schema = true then memberFrames schema fields + 1 else 0
  | _ => 0

def memberFrames (schema : Schema) : List (String × Json) -> Nat
  | [] => 0
  | (name, value) :: rest =>
    max (match schema.property name with
      | none => 0
      | some inner => fieldFrames inner value + 1) (memberFrames schema rest)

end

def afford {Value : Type} (needed frames : Nat) (value : Value) : Except PyError Value :=
  if needed ≤ frames then .ok value else .error tooDeep

theorem call_afford {Value : Type} {body : Nat -> Except PyError Value} {needed : Nat}
    {value : Value} (runs : ∀ frames, body frames = afford needed frames value) (frames : Nat) :
    call body frames = afford (needed + 1) frames value := by
  cases frames with
  | zero => exact (if_neg (Nat.not_succ_le_zero needed)).symm
  | succ frames => simp only [call, runs, afford, Nat.succ_le_succ_iff]

theorem bind_afford {Value Result : Type} {first second frames : Nat} {value : Value}
    {further : Value -> Except PyError Result} {result : Result}
    (next : further value = afford second frames result) :
    afford first frames value >>= further = afford (max first second) frames result := by
  unfold afford at next ⊢
  by_cases enough : first ≤ frames
  · rw [if_pos enough]
    refine next.trans ?_
    simp only [Nat.max_le, enough, true_and]
  · rw [if_neg enough, if_neg fun both => enough (Nat.le_trans (Nat.le_max_left _ _) both)]
    rfl

mutual

theorem validateField_eq (frames : Nat) (name : String) (schema : Schema) : ∀ value : Json,
    validateField printing frames name schema value =
      afford (fieldFrames schema value) frames (fieldErrors printing name schema value)
  | .null => by unfold validateField fieldErrors; exact (apply_ite Except.ok _ _ _).symm
  | .bool _ => by unfold validateField fieldErrors; exact (apply_ite Except.ok _ _ _).symm
  | .int _ => by unfold validateField fieldErrors; exact (apply_ite Except.ok _ _ _).symm
  | .float _ => by unfold validateField fieldErrors; exact (apply_ite Except.ok _ _ _).symm
  | .str _ => by unfold validateField fieldErrors; exact (apply_ite Except.ok _ _ _).symm
  | .arr _ => by unfold validateField fieldErrors; exact (apply_ite Except.ok _ _ _).symm
  | .obj fields => by
    have below := fun frames => validateFields_eq frames schema fields
    unfold validateField fieldErrors fieldFrames
    dsimp only
    cases into : descends schema with
    | true =>
      have typed : checkType name (.obj fields) schema.keywords = [] := by
        refine checkType_eq_nil.mpr fun expected declared => ?_
        unfold descends at into
        rw [Bool.and_eq_true, decide_eq_true_eq] at into
        cases into.1.symm.trans declared
        exact .object fields
      rw [call_afford below]
      simp only [typed, if_true, ne_eq, not_true, if_false, afford]
      split <;> rfl
    | false =>
      simp only [Bool.false_eq_true, if_false, afford, Nat.zero_le, if_true, List.append_nil]
      split <;> rfl

theorem validateFields_eq (frames : Nat) (schema : Schema) : ∀ fields : List (String × Json),
    validateFields printing frames schema fields =
      afford (memberFrames schema fields) frames (memberErrors printing schema fields)
  | [] => rfl
  | (name, value) :: rest => by
    have later := validateFields_eq frames schema rest
    have here := fun inner frames => validateField_eq frames name inner value
    unfold validateFields memberErrors memberFrames
    cases schema.property name with
    | none =>
      dsimp only
      rw [later, Nat.zero_max]
      rfl
    | some inner =>
      dsimp only
      rw [call_afford (here inner)]
      refine bind_afford ?_
      rw [later]
      unfold afford
      split <;> rfl

end

mutual

theorem fieldErrors_eq_nil (name : String) (schema : Schema) : ∀ value : Json,
    fieldErrors printing name schema value = [] <-> Checked schema value
  | .null => by unfold fieldErrors; exact plain_eq_nil nofun
  | .bool _ => by unfold fieldErrors; exact plain_eq_nil nofun
  | .int _ => by unfold fieldErrors; exact plain_eq_nil nofun
  | .float _ => by unfold fieldErrors; exact plain_eq_nil nofun
  | .str _ => by unfold fieldErrors; exact plain_eq_nil nofun
  | .arr _ => by unfold fieldErrors; exact plain_eq_nil nofun
  | .obj fields => by
    have below := memberErrors_eq_nil schema fields
    have length : checkLength name (.obj fields) schema.keywords = [] :=
      checkLength_eq_nil.mpr fun _ _ impossible => nomatch impossible
    have range : checkRange printing name (.obj fields) schema.keywords = [] :=
      checkRange_eq_nil.mpr fun _ _ impossible => nomatch impossible
    have own : OwnRead schema.keywords (.obj fields) <->
        checkType name (.obj fields) schema.keywords = [] ∧
          checkEnum printing name (.obj fields) schema.keywords = [] := by
      rw [@ownRead_iff printing name]
      exact ⟨fun all => ⟨all.1, all.2.1⟩, fun both => ⟨both.1, both.2, length, range⟩⟩
    have split : Checked schema (.obj fields) <-> OwnRead schema.keywords (.obj fields) ∧
        (descends schema = true -> Members schema fields ∧ ∀ name inner sub,
          (name, inner) ∈ fields -> schema.property name = some sub -> Checked sub inner) := by
      constructor
      · intro checked
        cases checked with
        | mk own members inside =>
          exact ⟨own, fun into => ⟨members into fields rfl,
            fun name inner sub => inside into fields name inner sub rfl⟩⟩
      · rintro ⟨own, both⟩
        refine .mk own (fun into other object => ?_) fun into other name inner sub object => ?_
        · cases object
          exact (both into).1
        · cases object
          exact (both into).2 name inner sub
    unfold fieldErrors
    rw [split, own]
    dsimp only
    by_cases type : checkType name (.obj fields) schema.keywords = []
    · rw [if_neg (not_not_intro type), List.append_eq_nil_iff, and_assoc]
      refine Iff.trans (and_congr_right fun _ => ?_) (and_iff_right type).symm
      split
      case isTrue into =>
        rw [List.map_eq_nil_iff, List.append_eq_nil_iff, members_eq_nil, below]
        exact ⟨fun both _ => both, fun both => both into⟩
      case isFalse out => exact iff_of_true rfl fun into => absurd into out
    · rw [if_pos type]
      exact iff_of_false type fun all => type all.1.1

theorem memberErrors_eq_nil (schema : Schema) : ∀ fields : List (String × Json),
    memberErrors printing schema fields = [] <-> ∀ name inner sub,
      (name, inner) ∈ fields -> schema.property name = some sub -> Checked sub inner
  | [] => by
    unfold memberErrors
    exact iff_of_true rfl fun _ _ _ impossible => nomatch impossible
  | (name, value) :: rest => by
    have later := memberErrors_eq_nil schema rest
    unfold memberErrors
    rw [List.append_eq_nil_iff, later]
    constructor
    · rintro ⟨first, others⟩ other inner sub member given
      rcases List.mem_cons.mp member with same | behind
      · cases same
        rw [given] at first
        exact (fieldErrors_eq_nil name sub value).mp first
      · exact others other inner sub behind given
    · intro all
      refine ⟨?_, fun other inner sub behind => all other inner sub (List.mem_cons_of_mem _ behind)⟩
      cases given : schema.property name with
      | none => rfl
      | some sub =>
        exact (fieldErrors_eq_nil name sub value).mpr
          (all name value sub List.mem_cons_self given)

end

/-! ## The places that errors name -/

/-- The path leads to a place of the value at which the schema is violated: a
member that is missing or not allowed, or one that violates keywords of its own. -/
inductive Offends : Schema -> Json -> List String -> Prop where
  | missing {schema : Schema} {fields : Dict String Json} {name : String}
      (required : name ∈ schema.keywords.required) (absent : name ∉ fields.keys) :
      Offends schema (.obj fields) [name]
  | unknown {schema : Schema} {fields : Dict String Json} {name : String}
      (closed : schema.keywords.additionalProperties = some false) (present : name ∈ fields.keys)
      (unlisted : schema.property name = none) : Offends schema (.obj fields) [name]
  | own {schema sub : Schema} {fields : Dict String Json} {name : String} {inner : Json}
      (member : (name, inner) ∈ fields) (given : schema.property name = some sub)
      (violated : Not (Own sub.keywords inner)) : Offends schema (.obj fields) [name]
  | deeper {schema sub : Schema} {fields : Dict String Json} {name : String} {inner : Json}
      {path : List String} (member : (name, inner) ∈ fields)
      (given : schema.property name = some sub) (offends : Offends sub inner path) :
      Offends schema (.obj fields) (name :: path)

variable {schema : Schema} {value : Json}

theorem Offends.not_satisfies {path : List String}
    (offends : Offends schema value path) : Not (Satisfies schema value) := by
  intro satisfies
  induction offends with
  | missing required absent =>
    cases satisfies with
    | mk own members inside => exact absent ((members _ rfl).required _ required)
  | unknown closed present unlisted =>
    cases satisfies with
    | mk own members inside =>
      have known := (members _ rfl).known closed _ present
      rw [unlisted] at known
      cases known
  | own member given violated =>
    cases satisfies with
    | mk own members inside =>
      cases inside _ _ _ _ rfl member given with
      | mk inner => exact violated inner
  | deeper member given offends ih =>
    cases satisfies with
    | mk own members inside => exact ih (inside _ _ _ _ rfl member given)

def pathText : List String -> String
  | [] => ""
  | [name] => name
  | name :: next :: rest => name ++ "." ++ pathText (next :: rest)

/-- The error names a path to an offending place. -/
def Names (schema : Schema) (value : Json) (error : ValidationError) : Prop :=
  ∃ path, error.field = pathText path ∧ Offends schema value path

theorem Offends.ne_nil {path : List String} (offends : Offends schema value path) : path ≠ [] := by
  cases offends <;> exact List.cons_ne_nil _ _

variable {fields : Dict String Json} {name : String} {error : ValidationError}

theorem names_within {sub : Schema} {inner : Json} (member : (name, inner) ∈ fields)
    (given : schema.property name = some sub) (names : Names sub inner error) :
    Names schema (.obj fields) (within name error) := by
  rcases names with ⟨path, same, offends⟩
  refine ⟨name :: path, ?_, .deeper member given offends⟩
  change name ++ "." ++ error.field = _
  rw [same]
  cases path with
  | nil => exact absurd rfl offends.ne_nil
  | cons first rest => rfl

theorem names_members
    (reported : error ∈ missingFields fields schema ++ unknownFields fields schema) :
    Names schema (.obj fields) error := by
  rcases List.mem_append.mp reported with missing | unknown
  · rcases List.mem_map.mp missing with ⟨name, required, rfl⟩
    rcases List.mem_filter.mp required with ⟨listed, absent⟩
    exact ⟨[name], rfl, .missing listed (of_decide_eq_true absent)⟩
  · unfold unknownFields at unknown
    split at unknown
    case isTrue closed =>
      rcases List.mem_map.mp unknown with ⟨member, unlisted, rfl⟩
      rcases List.mem_filter.mp unlisted with ⟨present, none_⟩
      exact ⟨[member.1], rfl, .unknown closed (List.mem_map_of_mem present)
        (Option.isNone_iff_eq_none.mp none_)⟩
    case isFalse => cases unknown

section Reports

variable {printing : Printing} {name : String} {value : Json} {keywords : Keywords}
variable {error : ValidationError}

theorem field_of_own
    (reported : error ∈ checkType name value keywords ∨ error ∈ checkEnum printing name value keywords ∨
      error ∈ checkLength name value keywords ∨ error ∈ checkRange printing name value keywords) :
    error.field = name ∧ Not (OwnRead keywords value) := by
  refine ⟨?_, fun own => ?_⟩
  · have bound : ∀ {Limit : Type} {expected : String} {message : Limit -> String}
        {kept : Limit -> Bool} {limit : Option Limit},
        error ∈ checkBound name value expected message kept limit -> error.field = name := by
      intro Limit expected message kept limit member
      unfold checkBound at member
      split at member
      · cases member
      · split at member
        · cases member
        · rw [List.mem_singleton.mp member]
    rcases reported with type | enum | length | range
    · unfold checkType at type
      split at type
      · cases type
      · split at type
        · cases type
        · rw [List.mem_singleton.mp type]
    · unfold checkEnum at enum
      split at enum
      · cases enum
      · split at enum
        · cases enum
        · rw [List.mem_singleton.mp enum]
    · unfold checkLength at length
      split at length
      · exact (List.mem_append.mp length).elim bound bound
      · cases length
    · unfold checkRange at range
      split at range
      · exact (List.mem_append.mp range).elim bound bound
      · cases range
  · rcases (@ownRead_iff printing name value keywords).mp own with ⟨type, enum, length, range⟩
    rw [type, enum, length, range] at reported
    simp at reported

end Reports

/-- An error about a member is about the member itself or about a place in it. -/
def Reported (name : String) (schema : Schema) (value : Json) (error : ValidationError) : Prop :=
  (error.field = name ∧ Not (Own schema.keywords value)) ∨
    ∃ inner, error = within name inner ∧ Names schema value inner

theorem Reported.names {sub : Schema} {inner : Json} (reported : Reported name sub inner error)
    (member : (name, inner) ∈ fields) (given : schema.property name = some sub) :
    Names schema (.obj fields) error := by
  rcases reported with ⟨field, violated⟩ | ⟨below, rfl, names⟩
  · exact ⟨[name], field, .own member given violated⟩
  · exact names_within member given names

theorem reported_own {printing : Printing} {name : String} {schema : Schema} {value : Json}
    {error : ValidationError} (reported : error ∈ checkType name value schema.keywords ∨
      error ∈ checkEnum printing name value schema.keywords ∨
      error ∈ checkLength name value schema.keywords ∨
      error ∈ checkRange printing name value schema.keywords) : Reported name schema value error :=
  .inl ((field_of_own reported).imp_right fun violated own => violated (own_iff.mp own).1)

theorem reported_plain (reported : error ∈ if checkType name value schema.keywords ≠ [] then
        checkType name value schema.keywords
      else checkEnum printing name value schema.keywords ++ checkLength name value schema.keywords ++
        checkRange printing name value schema.keywords) : Reported name schema value error := by
  refine @reported_own printing _ _ _ _ ?_
  split at reported
  · exact .inl reported
  · rcases List.mem_append.mp reported with both | range
    · exact .inr ((List.mem_append.mp both).imp_right Or.inl)
    · exact .inr (.inr (.inr range))

mutual

theorem reported_fieldErrors (name : String) (schema : Schema) : ∀ (value : Json)
    (error : ValidationError), error ∈ fieldErrors printing name schema value ->
      Reported name schema value error
  | .null, error => by unfold fieldErrors; exact reported_plain printing
  | .bool _, error => by unfold fieldErrors; exact reported_plain printing
  | .int _, error => by unfold fieldErrors; exact reported_plain printing
  | .float _, error => by unfold fieldErrors; exact reported_plain printing
  | .str _, error => by unfold fieldErrors; exact reported_plain printing
  | .arr _, error => by unfold fieldErrors; exact reported_plain printing
  | .obj fields, error => by
    have below := reported_memberErrors schema fields
    unfold fieldErrors
    intro reported
    dsimp only at reported
    split at reported
    · exact @reported_own printing _ _ _ _ (.inl reported)
    rcases List.mem_append.mp reported with enum | deeper
    · exact reported_own (.inr (.inl enum))
    split at deeper
    · rcases List.mem_map.mp deeper with ⟨inner, member, rfl⟩
      refine .inr ⟨inner, rfl, ?_⟩
      rcases List.mem_append.mp member with here | there
      · exact names_members here
      · rcases below inner there with ⟨name, value, sub, listed, given, reported⟩
        exact reported.names listed given
    · cases deeper

theorem reported_memberErrors (schema : Schema) : ∀ (fields : List (String × Json))
    (error : ValidationError), error ∈ memberErrors printing schema fields ->
      ∃ name value sub, (name, value) ∈ fields ∧
        schema.property name = some sub ∧ Reported name sub value error
  | [], error => by
    unfold memberErrors
    exact fun impossible => nomatch impossible
  | (name, value) :: rest, error => by
    have later := reported_memberErrors schema rest error
    unfold memberErrors
    intro reported
    rcases List.mem_append.mp reported with here | there
    · cases given : schema.property name with
      | none =>
        rw [given] at here
        cases here
      | some sub =>
        rw [given] at here
        exact ⟨name, value, sub, List.mem_cons_self, given,
          reported_fieldErrors name sub value error here⟩
    · rcases later there with ⟨other, inner, sub, listed, rest⟩
      exact ⟨other, inner, sub, List.mem_cons_of_mem _ listed, rest⟩

end

/-! ## The arguments of a call -/

/-- Nothing is violated that is read of the arguments as a whole. -/
def CheckedArguments (schema : Schema) (arguments : Dict String Json) : Prop :=
  Members schema arguments ∧ ∀ name inner sub, (name, inner) ∈ arguments ->
    schema.property name = some sub -> Checked sub inner

/-- Nothing is violated that is not read of them: the type and the allowed values
of the arguments as a whole are not. -/
def UnreadArguments (schema : Schema) (arguments : Dict String Json) : Prop :=
  Own schema.keywords (.obj arguments) ∧ ∀ name inner sub, (name, inner) ∈ arguments ->
    schema.property name = some sub -> Unread sub inner

theorem satisfies_arguments_iff {arguments : Dict String Json} :
    Satisfies schema (.obj arguments) <->
      CheckedArguments schema arguments ∧ UnreadArguments schema arguments := by
  constructor
  · intro satisfies
    cases satisfies with
    | mk own members inside =>
      exact ⟨⟨members arguments rfl, fun name inner sub member given =>
          (inside arguments name inner sub rfl member given).split.1⟩,
        ⟨own, fun name inner sub member given =>
          (inside arguments name inner sub rfl member given).split.2⟩⟩
  · rintro ⟨⟨members, checked⟩, own, unread⟩
    refine .mk own (fun fields object => ?_) fun fields name inner sub object member given => ?_
    · cases object
      exact members
    · cases object
      exact (checked name inner sub member given).join (unread name inner sub member given)

theorem validate_eq (arguments : Dict String Json) (schema : Schema) (frames : Nat) :
    validate printing arguments schema frames =
      afford (memberFrames schema arguments) frames (report printing arguments schema) := by
  unfold validate
  rw [validateFields_eq]
  unfold afford
  split <;> rfl

theorem valid_iff_checked (arguments : Dict String Json) (schema : Schema) :
    (report printing arguments schema).valid = true <-> CheckedArguments schema arguments := by
  change (_ : List ValidationError).isEmpty = true <-> _
  rw [List.isEmpty_iff, List.append_eq_nil_iff, members_eq_nil, memberErrors_eq_nil]
  rfl

theorem names_of_reported (arguments : Dict String Json) (schema : Schema)
    (reported : error ∈ (report printing arguments schema).errors) :
    Names schema (.obj arguments) error := by
  rcases List.mem_append.mp reported with here | there
  · exact names_members here
  · rcases reported_memberErrors printing schema arguments error there with
      ⟨name, value, sub, listed, given, about⟩
    exact about.names listed given

theorem exists_named (arguments : Dict String Json) (schema : Schema)
    (invalid : (report printing arguments schema).valid = false) :
    ∃ error ∈ (report printing arguments schema).errors, Names schema (.obj arguments) error := by
  have some_ : (report printing arguments schema).errors ≠ [] := by
    intro none_
    have valid : (report printing arguments schema).valid = true := by
      change (report printing arguments schema).errors.isEmpty = true
      rw [none_]
      rfl
    rw [valid] at invalid
    cases invalid
  rcases List.exists_mem_of_ne_nil _ some_ with ⟨error, reported⟩
  exact ⟨error, reported, names_of_reported printing arguments schema reported⟩

variable (arguments : Dict String Json) (schema : Schema) (frames : Nat)

/-- The validator returns, accepts exactly what satisfies the schema, and otherwise names an
offending place. -/
def Right : Prop :=
  ∃ result, validate printing arguments schema frames = .ok result ∧
    (result.valid = true <-> Satisfies schema (.obj arguments)) ∧
    (result.valid = false -> ∃ error ∈ result.errors, Names schema (.obj arguments) error)

/-- The validator is right exactly if the objects that it looks into are not nested deeper than
the frames go, and nothing that it does not read is violated where nothing is that it reads. -/
theorem validate_right_iff : Right printing arguments schema frames <->
    memberFrames schema arguments ≤ frames ∧
      (CheckedArguments schema arguments -> UnreadArguments schema arguments) := by
  unfold Right
  rw [validate_eq, satisfies_arguments_iff]
  by_cases enough : memberFrames schema arguments ≤ frames
  case neg =>
    rw [afford, if_neg enough]
    exact iff_of_false (fun ⟨_, impossible, _⟩ => nomatch impossible) fun both => enough both.1
  rw [afford, if_pos enough, and_iff_right enough]
  have checked := valid_iff_checked printing arguments schema
  constructor
  · rintro ⟨result, ⟨⟩, right, _⟩ valid
    exact (right.mp (checked.mpr valid)).2
  · intro unread
    refine ⟨_, rfl, checked.trans ⟨fun valid => ⟨valid, unread valid⟩, And.left⟩, ?_⟩
    exact exists_named printing arguments schema

end Validation

/-- Whether or not there are keywords that the validator does not read: with frames enough it
rejects nothing that satisfies the schema, and every error names a place at which the arguments
offend it; and nothing but the want of frames is raised. -/
def SoundFor (schema : Schema) (arguments : Dict String Json) (frames : Nat) :
    Except PyError ValidationResult -> Prop
  | .ok result => memberFrames schema arguments ≤ frames ∧
    (Satisfies schema (.obj arguments) -> result.valid = true) ∧
    ∀ error ∈ result.errors, Names schema (.obj arguments) error
  | .error failure => frames < memberFrames schema arguments ∧ failure = tooDeep

theorem validate_sound (printing : Printing) (schema : Schema) (arguments : Dict String Json)
    (frames : Nat) :
    SoundFor schema arguments frames (validate printing arguments schema frames) := by
  rw [validate_eq]
  unfold afford
  split
  case isTrue enough =>
    refine ⟨enough, fun satisfies => ?_, fun _ => names_of_reported printing arguments schema⟩
    exact (valid_iff_checked printing arguments schema).mpr (satisfies_arguments_iff.mp satisfies).1
  case isFalse short => exact ⟨Nat.lt_of_not_le short, rfl⟩

def asciiPrinting : Printing := ⟨fun _ => false, fun number => toString number.num ++ ".0"⟩

/-- A nested object has to have a member, but its schema declares no properties. -/
def hostless : Schema :=
  .mk { type := some .object }
    (some [("target", .mk { type := some .object, required := ["host"] } none)])

theorem nested_required_unread :
    (validate asciiPrinting [("target", .obj [])] hostless 1000).map ValidationResult.valid =
        .ok true ∧
      ¬ Satisfies hostless (.obj [("target", .obj [])]) := by
  refine ⟨rfl, fun satisfies => ?_⟩
  cases satisfies with
  | mk own members inside =>
    cases inside _ "target" (.obj []) _ rfl List.mem_cons_self rfl with
    | mk own members inside =>
      exact absurd ((members _ rfl).required "host" List.mem_cons_self) List.not_mem_nil

end SchemaValidator
end Tools

end BreadMind
