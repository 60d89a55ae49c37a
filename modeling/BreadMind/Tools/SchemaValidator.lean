import BreadMind.Settings.Schema
import BreadMind.Text.Printing
import BreadMind.Execution.Dict

namespace BreadMind
namespace Tools
namespace SchemaValidator

open Execution Text

/-!
# The validator of tool arguments

The arguments of a call are checked against the parameter schema of the tool,
member by member; a member that is an object is checked in the same way.  The
keywords of a schema are the documented ones.

`validate` and `_validate_field` call each other, and each call takes a frame of
the interpreter; the frames of helpers that call nothing further are not counted.
-/

inductive SchemaType where
  | string
  | integer
  | number
  | boolean
  | array
  | object
  deriving DecidableEq

def SchemaType.text : SchemaType -> String
  | string => "string"
  | integer => "integer"
  | number => "number"
  | boolean => "boolean"
  | array => "array"
  | object => "object"

inductive Bound where
  | int (value : Int)
  | float (value : Rat)

def Bound.value : Bound -> Rat
  | int value => value
  | float value => value

def Bound.toJson : Bound -> Json
  | int value => .int value
  | float value => .float value

/-- What a schema says itself; `required` is empty when it is absent. -/
structure Keywords where
  type : Option SchemaType := none
  enum : Option (List Json) := none
  minLength : Option Nat := none
  maxLength : Option Nat := none
  minimum : Option Bound := none
  maximum : Option Bound := none
  required : List String := []
  additionalProperties : Option Bool := none

inductive Schema where
  | mk (keywords : Keywords) (properties : Option (List (String × Schema)))

namespace Schema

def keywords : Schema -> Keywords
  | mk keywords _ => keywords

def properties : Schema -> Option (List (String × Schema))
  | mk _ properties => properties

def property (schema : Schema) (name : String) : Option Schema :=
  (schema.properties.getD []).lookup name

end Schema

structure ValidationError where
  field : String
  message : String
  expectedType : String
  actualValue : Json

structure ValidationResult where
  valid : Bool
  errors : List ValidationError := []

/-- `type(value).__name__`. -/
def typeName : Json -> String
  | .null => "NoneType"
  | .bool _ => "bool"
  | .int _ => "int"
  | .float _ => "float"
  | .str _ => "str"
  | .arr _ => "list"
  | .obj _ => "dict"

def validateType (value : Json) : SchemaType -> Bool
  | .string => match value with | .str _ => true | _ => false
  | .integer => match value with | .int _ => true | _ => false
  | .number => match value with | .int _ | .float _ => true | _ => false
  | .boolean => match value with | .bool _ => true | _ => false
  | .array => match value with | .arr _ => true | _ => false
  | .object => match value with | .obj _ => true | _ => false

def numeric : Json -> Option Rat
  | .int value => some value
  | .float value => some value
  | _ => none

section Checks

variable (printing : Printing)

def shown (value : Json) : String := printing.str value

variable (name : String)

def checkType (value : Json) (keywords : Keywords) : List ValidationError :=
  match keywords.type with
  | none => []
  | some expected =>
    if validateType value expected = true then []
    else [⟨name, "Expected type '" ++ expected.text ++ "', got '" ++ typeName value ++ "'",
      expected.text, value⟩]

def checkEnum (value : Json) (keywords : Keywords) : List ValidationError :=
  match keywords.enum with
  | none => []
  | some allowed =>
    if (allowed.any fun item => value.pyEq item) = true then []
    else [⟨name, "Value '" ++ shown printing value ++ "' not in allowed values: " ++
        shown printing (.arr allowed), (keywords.type.map SchemaType.text).getD "enum", value⟩]

def checkBound {Limit : Type} (value : Json) (expected : String)
    (message : Limit -> String) (kept : Limit -> Bool) : Option Limit -> List ValidationError
  | none => []
  | some limit => if kept limit = true then [] else [⟨name, message limit, expected, value⟩]

def checkLength (value : Json) (keywords : Keywords) : List ValidationError :=
  match keywords.type, value with
  | some .string, .str text =>
    checkBound name value "string" (fun limit : Nat => "String length " ++ toString text.length ++
        " is less than minimum " ++ toString limit)
      (fun limit => decide (limit ≤ text.length)) keywords.minLength ++
    checkBound name value "string" (fun limit : Nat => "String length " ++ toString text.length ++
        " exceeds maximum " ++ toString limit)
      (fun limit => decide (text.length ≤ limit)) keywords.maxLength
  | _, _ => []

def numericType : Option SchemaType -> Bool
  | some .integer | some .number => true
  | _ => false

def checkRange (value : Json) (keywords : Keywords) : List ValidationError :=
  match numericType keywords.type, numeric value with
  | true, some number =>
    let expected := (keywords.type.map SchemaType.text).getD ""
    checkBound name value expected (fun limit : Bound => "Value " ++ shown printing value ++
        " is less than minimum " ++ shown printing limit.toJson)
      (fun limit => decide (limit.value ≤ number)) keywords.minimum ++
    checkBound name value expected (fun limit : Bound => "Value " ++ shown printing value ++
        " exceeds maximum " ++ shown printing limit.toJson)
      (fun limit => decide (number ≤ limit.value)) keywords.maximum
  | _, _ => []

variable (arguments : Dict String Json) (schema : Schema)

def missingFields : List ValidationError :=
  (schema.keywords.required.filter fun name => decide (name ∉ arguments.keys)).map fun name =>
    { field := name
      message := "Required field '" ++ name ++ "' is missing"
      expectedType := (((schema.property name).bind fun schema =>
        schema.keywords.type).map SchemaType.text).getD "unknown"
      actualValue := .null }

def unknownFields : List ValidationError :=
  if schema.keywords.additionalProperties = some false then
    (arguments.filter fun member => (schema.property member.1).isNone).map fun member =>
      { field := member.1
        message := "Unknown field '" ++ member.1 ++ "' is not allowed"
        expectedType := "N/A"
        actualValue := member.2 }
  else []

/-- An error of a member of an object, named from outside the object. -/
def within (error : ValidationError) : ValidationError :=
  { error with field := name ++ "." ++ error.field }

/-- An object whose members are looked into. -/
def descends : Bool :=
  decide (schema.keywords.type = some .object) && schema.properties.isSome

def tooDeep : PyError := .recursionError "maximum recursion depth exceeded"

/-- A call takes one of the frames that are left. -/
def call {Value : Type} (body : Nat -> Except PyError Value) : Nat -> Except PyError Value
  | 0 => .error tooDeep
  | frames + 1 => body frames

mutual

def validateField (frames : Nat) (name : String) (schema : Schema) :
    Json -> Except PyError (List ValidationError)
  | .obj fields =>
    let wrong := checkType name (.obj fields) schema.keywords
    if wrong ≠ [] then .ok wrong
    else
      let unlisted := checkEnum printing name (.obj fields) schema.keywords
      if descends schema = true then
        (call (fun frames => validateFields frames schema fields) frames).map fun nested =>
          unlisted ++ (missingFields fields schema ++ unknownFields fields schema ++ nested).map
            (within name)
      else .ok unlisted
  | value =>
    let wrong := checkType name value schema.keywords
    if wrong ≠ [] then .ok wrong
    else
      .ok (checkEnum printing name value schema.keywords ++ checkLength name value schema.keywords ++
        checkRange printing name value schema.keywords)

def validateFields (frames : Nat) (schema : Schema) :
    List (String × Json) -> Except PyError (List ValidationError)
  | [] => .ok []
  | (name, value) :: rest =>
    match schema.property name with
    | none => validateFields frames schema rest
    | some inner => do
      let errors ← call (fun frames => validateField frames name inner value) frames
      let others ← validateFields frames schema rest
      return errors ++ others

end

def validate (frames : Nat) : Except PyError ValidationResult := do
  let nested ← validateFields printing frames schema arguments
  let errors := missingFields arguments schema ++ unknownFields arguments schema ++ nested
  return { valid := errors.isEmpty, errors }

end Checks

end SchemaValidator
end Tools
end BreadMind
