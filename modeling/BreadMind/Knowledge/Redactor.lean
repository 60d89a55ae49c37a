import BreadMind.Text.Regex
import Mathlib.Algebra.GroupWithZero.Nat

namespace BreadMind
namespace Knowledge

open Regex (Pattern)

/-!
# The redactor

Secrets abort the processing of a text; what identifies a person or a client is
masked by tokens which can be taken back later.  Both work by regular
expressions, over the classes of characters of Python, which are a parameter.
The entropy of a token is a floating-point number, so what counts as a high one
is a parameter as well.
-/

/-- The classes of characters.  The signs in an address and the angle brackets
are no letters of a word. -/
structure CharClasses where
  isWord : Char -> Bool
  isDigit : Char -> Bool
  isSpace : Char -> Bool
  digitValue : Char -> Nat
  plain : ∀ sign ∈ ['<', '>', '@', '.', '+', '-'], isWord sign = false

variable (letter : Char)

def isUpper : Bool := decide ('A' ≤ letter) && decide (letter ≤ 'Z')
def isLower : Bool := decide ('a' ≤ letter) && decide (letter ≤ 'z')
def isAsciiDigit : Bool := decide ('0' ≤ letter) && decide (letter ≤ '9')
def isAlphanumeric : Bool :=
  isUpper letter || isLower letter || isAsciiDigit letter

def isOneOf (letters : String) (letter : Char) : Bool := letters.toList.contains letter

/-! ## The patterns -/

def apiKeyPatterns : List Pattern :=
  [.all [.boundary, .either (.literal "sk") (.either (.literal "pk") (.literal "rk")),
      .literal "-", .atLeast 20 fun letter => isAlphanumeric letter || isOneOf "_-" letter,
      .boundary],
    .all [.boundary, .literal "ghp_", .atLeast 30 isAlphanumeric, .boundary],
    .all [.boundary, .literal "xox", .letter (isOneOf "aboprs"), .literal "-",
      .atLeast 10 fun letter => isAlphanumeric letter || isOneOf "-" letter, .boundary],
    .all [.boundary, .literal "AKIA",
      .repeated 16 (some 16) (.letter fun letter => isAsciiDigit letter || isUpper letter), .boundary],
    .all [.boundary, .literal "AIza",
      .atLeast 30 fun letter => isAlphanumeric letter || isOneOf "_-" letter, .boundary]]

def slackUserPattern : Pattern :=
  .either
    (.all [.literal "<@", .letter (isOneOf "UW"),
      .atLeast 6 fun letter => isUpper letter || isAsciiDigit letter, .literal ">"])
    (.all [.boundary, .letter (isOneOf "UW"),
      .atLeast 8 fun letter => isUpper letter || isAsciiDigit letter, .boundary])

def p4PathPattern : Pattern :=
  let part := fun letter => isAlphanumeric letter || isOneOf "_.-" letter
  .all [.literal "//", .oneOrMore part, .repeated 1 none (.all [.literal "/", .oneOrMore part])]

namespace CharClasses

variable (classes : CharClasses)

variable (letter : Char)

def isLocal : Bool := classes.isWord letter || isOneOf ".+-" letter

def isName : Bool := classes.isWord letter || isOneOf "-" letter

def isDomain : Bool := classes.isWord letter || isOneOf ".-" letter

def emailPattern : Pattern :=
  .all [.boundary, .oneOrMore classes.isLocal, .letter (· == '@'), .oneOrMore classes.isName,
    .letter (· == '.'), .oneOrMore classes.isDomain, .boundary]

def phonePattern : Pattern :=
  .all [.optional (· == '+'), .letter classes.isDigit,
    .atLeast 7 fun letter => classes.isDigit letter || classes.isSpace letter || isOneOf "-()." letter,
    .letter classes.isDigit]

def urlPattern : Pattern :=
  .all [.literal "http", .optional (· == 's'), .literal "://",
    .oneOrMore fun letter => !classes.isSpace letter && !isOneOf "<>\"'" letter]

def ssnPattern : Pattern :=
  let digits := fun count => Pattern.repeated count (some count) (.letter classes.isDigit)
  .all [.boundary, digits 3, .literal "-", digits 2, .literal "-", digits 4, .boundary]

def cardPattern : Pattern :=
  .all [.boundary, .atomic (.repeated 13 (some 19)
    (.all [.letter classes.isDigit, .optional (isOneOf " -")])), .boundary]

def longToken : Pattern :=
  .atLeast 24 fun letter => !classes.isSpace letter

/-- `_luhn_ok`: every second digit counts double, the last one does not. -/
def luhnOk (digits : List Char) : Bool :=
  let values := (digits.filter classes.isDigit).map classes.digitValue
  let doubled := fun value : Nat => if value * 2 > 9 then value * 2 - 9 else value * 2
  let checksum : Nat := ((values.zipIdx).map fun entry =>
    if entry.2 % 2 = values.length % 2 then doubled entry.1 else entry.1).sum
  decide (13 ≤ values.length) && decide (values.length ≤ 19) && decide (checksum % 10 = 0)

end CharClasses

/-- `str.replace`, with the letters that belong to the last match still to be left out. -/
def replaceFrom (term token : List Char) : Nat -> List Char -> List Char
  | _, [] => []
  | skipped + 1, _ :: rest => replaceFrom term token skipped rest
  | 0, letter :: rest =>
    if term.isPrefixOf (letter :: rest) then
      token ++ replaceFrom term token (term.length - 1) rest
    else letter :: replaceFrom term token 0 rest

def replaceAll (term token text : List Char) : List Char :=
  replaceFrom term token 0 text

def contains (text term : List Char) : Bool :=
  text.tails.any term.isPrefixOf

/-! ## Aborting and masking -/

/-- The redactor with its vocabulary, the longest terms first and none of them empty. -/
structure Redactor where
  classes : CharClasses
  highEntropy : List Char -> Bool
  internalDomains : List (List Char)
  vocab : List (List Char)
  named : ∀ term ∈ vocab, term ≠ []
  longestFirst : vocab.Pairwise fun term later => later.length ≤ term.length

/-- What the masking of a text keeps: how many tokens of each kind there are,
and what each token stands for. -/
structure Masking where
  counters : List (String × Nat) := []
  mapping : List (List Char × List Char) := []

def Masking.next (masking : Masking) (kind : String) (original : List Char) : List Char × Masking :=
  let count := (masking.counters.lookup kind).getD 0 + 1
  let token := ("<" ++ kind ++ "_" ++ toString count ++ ">").toList
  (token, { counters := (kind, count) :: masking.counters.filter fun entry => entry.1 != kind
            mapping := masking.mapping ++ [(token, original)] })

def CharClasses.ascii : CharClasses where
  isWord letter := isAlphanumeric letter || letter == '_'
  isDigit := isAsciiDigit
  isSpace := Char.isWhitespace
  digitValue letter := letter.toNat - '0'.toNat
  plain := by
    intro sign member
    have every : ['<', '>', '@', '.', '+', '-'].all (fun sign =>
        !(isAlphanumeric sign || sign == '_')) = true := by decide
    exact (Bool.not_eq_true' _).mp (List.all_eq_true.mp every sign member)

namespace Redactor

def default (classes : CharClasses) (highEntropy : List Char -> Bool) : Redactor where
  classes := classes
  highEntropy := highEntropy
  internalDomains := []
  vocab := []
  named := fun _ absent => nomatch absent
  longestFirst := List.Pairwise.nil

variable (redactor : Redactor)

variable (pattern : Pattern) (text : List Char)

def search : Bool :=
  Regex.search redactor.classes.isWord pattern text

/-- `abort_if_secrets`; the error is the text of the `SecretDetected`. -/
def abortIfSecrets : Except String Unit :=
  if apiKeyPatterns.any fun pattern => redactor.search pattern text then
    .error "api key / token pattern matched"
  else if (Regex.findAll redactor.classes.isWord redactor.classes.cardPattern text).any
      redactor.classes.luhnOk then
    .error "credit card number (Luhn)"
  else if redactor.search redactor.classes.ssnPattern text then .error "SSN pattern matched"
  else if (Regex.findAll redactor.classes.isWord redactor.classes.longToken text).any
      redactor.highEntropy then
    .error "high-entropy token"
  else .ok ()

/-- `pattern.sub(repl, s)`, with the masking carried along. -/
def substitute (replace : Masking -> List Char -> List Char × Masking)
    (text : List Char × Masking) : List Char × Masking :=
  let pieces := Regex.pieces redactor.classes.isWord pattern text.1
  Regex.substitute replace pieces.2 text.2 pieces.1

def subRegex (kind : String) (text : List Char × Masking) : List Char × Masking :=
  redactor.substitute pattern (fun masking found => masking.next kind found) text

def subUrl (text : List Char × Masking) : List Char × Masking :=
  redactor.substitute redactor.classes.urlPattern (fun masking url =>
    if redactor.internalDomains.any fun domain => contains url domain then
      masking.next "INTERNAL_URL" url
    else (url, masking)) text

/-- One term of `_sub_vocab`. -/
def subTerm (text : List Char × Masking) (term : List Char) : List Char × Masking :=
  if contains text.1 term then
    let next := text.2.next "CLIENT" term
    (replaceAll term next.1 text.1, next.2)
  else text

def subVocab (text : List Char × Masking) : List Char × Masking :=
  redactor.vocab.foldl subTerm text

/-- `redact`, without the name under which the mapping is stored. -/
def redact : List Char × Masking :=
  let emails := redactor.subRegex redactor.classes.emailPattern "EMAIL" (text, {})
  let phones := redactor.subRegex redactor.classes.phonePattern "PHONE" emails
  let users := redactor.subRegex slackUserPattern "USER" phones
  let urls := redactor.subUrl users
  let paths := redactor.subRegex p4PathPattern "P4_PATH" urls
  redactor.subVocab paths

/-- `pattern.sub(token, s)` with a fixed token. -/
def subFixed (token : String) (text : List Char) : List Char :=
  (redactor.substitute pattern (fun masking _ => (token.toList, masking)) (text, {})).1

/-- `redact_prompt`: the first kind of key that is found, and then the named patterns. -/
def redactPrompt : List Char :=
  let keys := match apiKeyPatterns.find? fun pattern => redactor.search pattern text with
    | some pattern => redactor.subFixed pattern "<API_KEY>" text
    | none => text
  [(redactor.classes.emailPattern, "<EMAIL>"), (redactor.classes.phonePattern, "<PHONE>"),
    (slackUserPattern, "<SLACK_USER>"), (p4PathPattern, "<P4_PATH>"),
    (redactor.classes.ssnPattern, "<SSN>"), (redactor.classes.urlPattern, "<URL>")].foldl
    (fun masked named => redactor.subFixed named.1 named.2 masked) keys

end Redactor

end Knowledge
end BreadMind
