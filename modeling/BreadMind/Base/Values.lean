import Mathlib.Data.Finset.Basic
import Mathlib.Data.Rat.Defs

namespace BreadMind

/-!
# Values shared by the modelled components

Identifiers are compared and never computed with.  `uuid4()` is not modelled
as a random draw: an operation that creates a row takes the fresh identifier
as an argument.

JSON values carry what the components pass through without looking inside,
such as the arguments of a tool.  Floating-point numbers appear as rationals,
since no modelled decision depends on their rounding.
-/

abbrev UUID := BitVec 128

instance : LawfulBEq UUID := inferInstance

inductive Json where
  | null
  | bool (value : Bool)
  | int (value : Int)
  | float (value : Rat)
  | str (value : String)
  | arr (items : List Json)
  | obj (fields : List (String × Json))

/-- The Python exceptions which the modelled code raises or distinguishes.
`raised` stands for whatever a collaborator outside the model throws. -/
inductive PyError where
  | keyError (key : String)
  | typeError (message : String)
  | attributeError (message : String)
  | valueError (message : String)
  | zeroDivisionError (message : String)
  | recursionError (message : String)
  | dagValidationError (message : String)
  | raised (kind message : String)
  deriving DecidableEq

/-- `str(exc)`.  A `KeyError` shows the quoted key and not a sentence. -/
def PyError.text : PyError -> String
  | .keyError key => "'" ++ key ++ "'"
  | .typeError message => message
  | .attributeError message => message
  | .valueError message => message
  | .zeroDivisionError message => message
  | .recursionError message => message
  | .dagValidationError message => message
  | .raised _ message => message

def PyError.typeName : PyError -> String
  | .keyError _ => "KeyError"
  | .typeError _ => "TypeError"
  | .attributeError _ => "AttributeError"
  | .valueError _ => "ValueError"
  | .zeroDivisionError _ => "ZeroDivisionError"
  | .recursionError _ => "RecursionError"
  | .dagValidationError _ => "DAGValidationError"
  | .raised kind _ => kind

/-- What `except Exception` catches; the others derive from `BaseException` only. -/
def PyError.isException : PyError -> Bool
  | .raised kind _ =>
    decide (kind ∉ ["CancelledError", "KeyboardInterrupt", "SystemExit", "GeneratorExit"])
  | _ => true

namespace Json

/-- Python's truth value. -/
def truthy : Json -> Bool
  | .null => false
  | .bool value => value
  | .int value => decide (value ≠ 0)
  | .float value => decide (value ≠ 0)
  | .str value => decide (value ≠ "")
  | .arr items => !items.isEmpty
  | .obj fields => !fields.isEmpty

def orEmpty (value : Json) : Json :=
  if value.truthy then value else .obj []

/-- `value.get(key)`; a value which is not a dictionary has no such method. -/
def get (value : Json) (key : String) : Except PyError (Option Json) :=
  match value with
  | .obj fields => .ok (fields.lookup key)
  | _ => .error (.attributeError "object has no attribute 'get'")

def isDict : Json -> Bool
  | .obj _ => true
  | _ => false

end Json

/-- A value as the key of a dictionary; keys other than strings are kept as text.
Arrays and objects cannot be hashed. -/
def Json.keyText : Json -> Option String
  | .null => some "None"
  | .bool value => some (if value then "True" else "False")
  | .int value => some (toString value)
  | .float value => some (toString value)
  | .str value => some value
  | _ => none

/-- One element of the sequence given to `dict(...)`: two values, however they
are held together. -/
def Json.dictPair : Json -> Except PyError (String × Json)
  | .arr [key, value] =>
    match key.keyText with
    | some text => .ok (text, value)
    | none => .error (.typeError "unhashable type")
  | .str text =>
    match text.toList with
    | [key, value] => .ok (String.singleton key, .str (String.singleton value))
    | _ => .error (.valueError "dictionary update sequence element has the wrong length; 2 is required")
  | .obj [first, second] => .ok (first.1, .str second.1)
  | .arr _ => .error (.valueError "dictionary update sequence element has the wrong length; 2 is required")
  | .obj _ => .error (.valueError "dictionary update sequence element has the wrong length; 2 is required")
  | _ => .error (.typeError "cannot convert dictionary update sequence element to a sequence")

def Json.setField (key : String) (value : Json) : List (String × Json) -> List (String × Json)
  | [] => [(key, value)]
  | field :: rest =>
    if field.1 = key then (key, value) :: rest else field :: setField key value rest

/-- `dict(value)`: an object is copied, a sequence of key and value pairs is
collected, and anything else is refused. -/
def Json.toDict : Json -> Except PyError Json
  | .obj fields => .ok (.obj fields)
  | .arr items => do
    let pairs ← items.mapM Json.dictPair
    return .obj (pairs.foldl (fun fields pair => Json.setField pair.1 pair.2 fields) [])
  | .str text =>
    if text = "" then .ok (.obj [])
    else .error (.valueError "dictionary update sequence element has the wrong length; 2 is required")
  | _ => .error (.typeError "object is not iterable")

def Json.toItems : Json -> Except PyError (List Json)
  | .arr items => .ok items
  | .obj fields => .ok (fields.map fun field => .str field.1)
  | .str text => .ok (text.toList.map fun letter => .str (String.singleton letter))
  | _ => .error (.typeError "object is not iterable")

def Json.toInt (parse : String -> Option Int) : Json -> Except PyError Int
  | .int value => .ok value
  | .bool value => .ok (if value then 1 else 0)
  | .float value => .ok (Int.tdiv value.num value.den)
  | .str text =>
    match parse text with
    | some value => .ok value
    | none => .error (.valueError "invalid literal for int() with base 10")
  | _ => .error (.typeError "int() argument must be a string or a real number")

end BreadMind
