import BreadMind.Base.Identifiers
import BreadMind.Text.Integers
import Mathlib.Data.Int.Log
import Mathlib.Data.Rat.Floor

namespace BreadMind
namespace Sdui

open Text

/-!
# The values of a settings form

A value is what the JSON parser makes of a payload, and that parser reads
`Infinity` and `NaN` as well.  `int` and `float` take numbers and texts; on
some values they raise an error which is neither a `TypeError` nor a
`ValueError`: the infinite ones for `int`, and for `float` the integers that
are too large.
-/

inductive Double where
  | finite (value : Rat)
  | infinity (negative : Bool)
  | nan
  deriving DecidableEq

inductive JsonValue where
  | null
  | bool (value : Bool)
  | int (value : Int)
  | float (value : Double)
  | str (value : String)
  | arr (items : List JsonValue)
  | obj (fields : List (String × JsonValue))

namespace Double

/-- The nearest integer; a tie goes to the even one. -/
def roundHalfEven (value : Rat) : Int :=
  let down := value.floor
  let rest := value - down
  if rest < 1 / 2 ∨ (rest = 1 / 2 ∧ down % 2 = 0) then down else down + 1

/-- The distance of the floats around a number: 53 binary digits, and none below `2^-1074`. -/
def unit (value : Rat) : Rat :=
  2 ^ max (Int.log 2 |value| - 52) (-1074)

/-- The nearest float, which is infinite from the middle above the largest finite one. -/
def ofRat (value : Rat) : Double :=
  let rounded := roundHalfEven (value / unit value) * unit value
  if 2 ^ 1024 ≤ |rounded| then .infinity (decide (value < 0)) else .finite rounded

def neg : Double -> Double
  | finite value => finite (-value)
  | infinity negative => infinity (!negative)
  | nan => nan

/-- `first <= second`, which nothing satisfies with a `nan`. -/
def le : Double -> Double -> Bool
  | finite first, finite second => decide (first ≤ second)
  | infinity negative, finite _ => negative
  | finite _, infinity negative => !negative
  | infinity first, infinity second => first || !second
  | _, _ => false

end Double

/-- The zeros of the decimal digits in Unicode; the nine digits which follow each are in order. -/
def digitZeros : List Nat :=
  [0x30, 0x660, 0x6F0, 0x7C0, 0x966, 0x9E6, 0xA66, 0xAE6, 0xB66, 0xBE6, 0xC66, 0xCE6, 0xD66,
    0xDE6, 0xE50, 0xED0, 0xF20, 0x1040, 0x1090, 0x17E0, 0x1810, 0x1946, 0x19D0, 0x1A80, 0x1A90,
    0x1B50, 0x1BB0, 0x1C40, 0x1C50, 0xA620, 0xA8D0, 0xA900, 0xA9D0, 0xA9F0, 0xAA50, 0xABF0,
    0xFF10, 0x104A0, 0x10D30, 0x11066, 0x110F0, 0x11136, 0x111D0, 0x112F0, 0x11450, 0x114D0,
    0x11650, 0x116C0, 0x11730, 0x118E0, 0x11950, 0x11C50, 0x11D50, 0x11DA0, 0x11F50, 0x16A60,
    0x16AC0, 0x16B50, 0x1D7CE, 0x1D7D8, 0x1D7E2, 0x1D7EC, 0x1D7F6, 0x1E140, 0x1E2F0, 0x1E4F0,
    0x1E950, 0x1FBF0]

/-- The white space from 127 on. -/
def wideSpaces : List Nat :=
  [0x85, 0xA0, 0x1680, 0x2000, 0x2001, 0x2002, 0x2003, 0x2004, 0x2005, 0x2006, 0x2007, 0x2008,
    0x2009, 0x200A, 0x2028, 0x2029, 0x202F, 0x205F, 0x3000]

/-- `str.isspace`, for a single letter. -/
def isSpace (letter : Char) : Bool :=
  isBlankSpace letter || decide (28 ≤ letter.toNat ∧ letter.toNat ≤ 31) ||
    wideSpaces.contains letter.toNat

/-- What the readers of numbers make of a letter: a blank, an ASCII digit, or nothing they know. -/
def toAscii (letter : Char) : Char :=
  if letter.toNat < 127 then letter
  else if wideSpaces.contains letter.toNat then ' '
  else
    match digitZeros.find? fun first => decide (first ≤ letter.toNat ∧ letter.toNat < first + 10) with
    | some first => Char.ofNat (0x30 + (letter.toNat - first))
    | none => '?'

def maxStrDigits : Nat := 4300

/-- `int(text)`, or `none` for a `ValueError`. -/
def intOfText (text : String) : Option Int :=
  let ascii := text.toList.map toAscii
  if maxStrDigits < (ascii.filter Char.isDigit).length then none else readInt ascii

/-- Digits with at most one point in them, which stand for a number. -/
def readNumber (text : List Char) : Option Rat :=
  let whole := text.takeWhile (· != '.')
  match text.dropWhile (· != '.') with
  | [] => (readDigits whole).map fun value => (value : Rat)
  | _ :: fraction =>
    if whole.isEmpty && fraction.isEmpty then none
    else do
      let units <- if whole.isEmpty then some 0 else readDigits whole
      let parts <- if fraction.isEmpty then some 0 else readDigits fraction
      some ((units : Rat) + parts / 10 ^ (fraction.filter Char.isDigit).length)

def readExponent : List Char -> Option Int
  | '-' :: digits => (readDigits digits).map fun value => -(value : Int)
  | '+' :: digits => (readDigits digits).map fun value => (value : Int)
  | digits => (readDigits digits).map fun value => (value : Int)

/-- A number without a sign, in lower case. -/
def readMagnitude (text : List Char) : Option Double :=
  if text = "inf".toList ∨ text = "infinity".toList then some (.infinity false)
  else if text = "nan".toList then some .nan
  else do
    let mantissa <- readNumber (text.takeWhile (· != 'e'))
    match text.dropWhile (· != 'e') with
    | [] => some (.ofRat mantissa)
    | _ :: exponent =>
      let power <- readExponent exponent
      some (.ofRat (mantissa * (10 : Rat) ^ power))

/-- `float(text)`, or `none` for a `ValueError`. -/
def floatOfText (text : String) : Option Double :=
  let ascii := text.toList.map fun letter => (toAscii letter).toLower
  match (ascii.dropWhile isBlankSpace).rdropWhile isBlankSpace with
  | '-' :: rest => (readMagnitude rest).map Double.neg
  | '+' :: rest => readMagnitude rest
  | rest => readMagnitude rest

def overflowError (message : String) : PyError :=
  .raised "OverflowError" message

def toInt : JsonValue -> Except PyError Int
  | .bool value => .ok (if value then 1 else 0)
  | .int value => .ok value
  | .float (.finite value) => .ok (if 0 ≤ value then value.floor else value.ceil)
  | .float (.infinity _) => .error (overflowError "cannot convert float infinity to integer")
  | .float .nan => .error (.valueError "cannot convert float NaN to integer")
  | .str text =>
    match intOfText text with
    | some value => .ok value
    | none => .error (.valueError "invalid literal for int() with base 10")
  | _ => .error (.typeError "int() argument must be a string, a bytes-like object or a real number")

def toFloat : JsonValue -> Except PyError Double
  | .bool value => .ok (.finite (if value then 1 else 0))
  | .int value =>
    match Double.ofRat value with
    | .finite rounded => .ok (.finite rounded)
    | _ => .error (overflowError "int too large to convert to float")
  | .float value => .ok value
  | .str text =>
    match floatOfText text with
    | some value => .ok value
    | none => .error (.valueError "could not convert string to float")
  | _ => .error (.typeError "float() argument must be a string or a real number")

/-- `except (TypeError, ValueError)`. -/
def isTypeOrValueError : PyError -> Bool
  | .typeError _ => true
  | .valueError _ => true
  | _ => false

/-- Python's truth value. -/
def JsonValue.truthy : JsonValue -> Bool
  | .null => false
  | .bool value => value
  | .int value => decide (value ≠ 0)
  | .float value => decide (value ≠ .finite 0)
  | .str text => decide (text ≠ "")
  | .arr items => !items.isEmpty
  | .obj fields => !fields.isEmpty

def JsonValue.isInfinite : JsonValue -> Bool
  | .float (.infinity _) => true
  | _ => false

def JsonValue.isHuge : JsonValue -> Bool
  | .int value =>
    match Double.ofRat value with
    | .finite _ => false
    | _ => true
  | _ => false

/-- Lists and dictionaries have no hash. -/
def JsonValue.isUnhashable : JsonValue -> Bool
  | .arr _ => true
  | .obj _ => true
  | _ => false

theorem toInt_uncaught (value : JsonValue) :
    (∃ error, toInt value = .error error ∧ isTypeOrValueError error = false) <->
      value.isInfinite = true := by
  cases value with
  | float value =>
    cases value <;> simp [toInt, JsonValue.isInfinite, overflowError, isTypeOrValueError]
  | str text =>
    cases read : intOfText text <;> simp [toInt, read, JsonValue.isInfinite, isTypeOrValueError]
  | null => simp [toInt, JsonValue.isInfinite, isTypeOrValueError]
  | bool value => simp [toInt, JsonValue.isInfinite]
  | int value => simp [toInt, JsonValue.isInfinite]
  | arr items => simp [toInt, JsonValue.isInfinite, isTypeOrValueError]
  | obj fields => simp [toInt, JsonValue.isInfinite, isTypeOrValueError]

theorem toFloat_uncaught (value : JsonValue) :
    (∃ error, toFloat value = .error error ∧ isTypeOrValueError error = false) <->
      value.isHuge = true := by
  unfold toFloat JsonValue.isHuge
  cases value with
  | int value =>
    dsimp only
    generalize Double.ofRat value = rounded
    cases rounded <;> simp [overflowError, isTypeOrValueError]
  | str text =>
    dsimp only
    cases floatOfText text <;> simp [isTypeOrValueError]
  | null => simp [isTypeOrValueError]
  | bool value => simp
  | float value => simp
  | arr items => simp [isTypeOrValueError]
  | obj fields => simp [isTypeOrValueError]

end Sdui
end BreadMind
