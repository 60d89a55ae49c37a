import BreadMind.Base.Values
import Mathlib.Data.List.Infix

namespace BreadMind
namespace Text

/-!
# What Python prints of a JSON value

A text is printed between quotes, and the letters that could be misread are
escaped: the quotes, the backslash, and whatever is not printable.  So a part of
a text need not be a part of what is printed; one whose letters are all printed
as they are is.
-/

structure Printing where
  isPrintable : Char -> Bool
  floatText : Rat -> String

def hexDigits (width number : Nat) : List Char :=
  List.leftpad width '0' (Nat.toDigits 16 number)

/-- Double quotes for a text that has single ones and no double ones. -/
def quoteFor (text : List Char) : Char :=
  if '\'' ∈ text ∧ Not ('"' ∈ text) then '"' else '\''

namespace Printing

variable (printing : Printing)

def letter (quote found : Char) : List Char :=
  if found = quote ∨ found = '\\' then ['\\', found]
  else if found = '\t' then ['\\', 't']
  else if found = '\n' then ['\\', 'n']
  else if found = '\r' then ['\\', 'r']
  else if found.toNat < 32 ∨ found.toNat = 127 then '\\' :: 'x' :: hexDigits 2 found.toNat
  else if found.toNat < 127 ∨ printing.isPrintable found = true then [found]
  else if found.toNat < 256 then '\\' :: 'x' :: hexDigits 2 found.toNat
  else if found.toNat < 65536 then '\\' :: 'u' :: hexDigits 4 found.toNat
  else '\\' :: 'U' :: hexDigits 8 found.toNat

def quoted (text : String) : List Char :=
  let quote := quoteFor text.toList
  quote :: text.toList.flatMap (printing.letter quote) ++ [quote]

mutual

def repr : Json -> List Char
  | .null => "None".toList
  | .bool value => (if value then "True" else "False").toList
  | .int value => (toString value).toList
  | .float value => (printing.floatText value).toList
  | .str text => printing.quoted text
  | .arr items => '[' :: reprItems items ++ [']']
  | .obj fields => '\x7b' :: reprFields fields ++ ['\x7d']

def reprItems : List Json -> List Char
  | [] => []
  | item :: rest => repr item ++ (if rest.isEmpty then [] else ", ".toList ++ reprItems rest)

def reprFields : List (String × Json) -> List Char
  | [] => []
  | (name, value) :: rest =>
    printing.quoted name ++ ": ".toList ++ repr value ++
      (if rest.isEmpty then [] else ", ".toList ++ reprFields rest)

end

/-- `str(value)`: a text is left as it is. -/
def str : Json -> String
  | .str text => text
  | value => String.ofList (printing.repr value)

/-- A letter that is printed as it is, whatever the quotes. -/
def Plain (found : Char) : Prop :=
  found ≠ '\\' ∧ found ≠ '\'' ∧ found ≠ '"' ∧ 32 ≤ found.toNat ∧ found.toNat ≠ 127 ∧
    (found.toNat < 127 ∨ printing.isPrintable found = true)

end Printing

mutual

/-- The texts inside a value, at any depth, the names of fields included. -/
def textsOf : Json -> List String
  | .str text => [text]
  | .arr items => textsOfItems items
  | .obj fields => textsOfFields fields
  | _ => []

def textsOfItems : List Json -> List String
  | [] => []
  | item :: rest => textsOf item ++ textsOfItems rest

def textsOfFields : List (String × Json) -> List String
  | [] => []
  | (name, value) :: rest => name :: (textsOf value ++ textsOfFields rest)

end

/-! ## Parts of what is printed -/

namespace Printing

variable {printing : Printing} {part : List Char}

theorem letter_plain {quote found : Char} (plain : printing.Plain found)
    (isQuote : quote = '\'' ∨ quote = '"') : printing.letter quote found = [found] := by
  rcases plain with ⟨backslash, single, double, low, delete, printable⟩
  have noQuote : found ≠ quote := by
    rcases isQuote with rfl | rfl
    · exact single
    · exact double
  have tab : found ≠ '\t' := fun same => absurd low (by rw [same]; decide)
  have newline : found ≠ '\n' := fun same => absurd low (by rw [same]; decide)
  have carriage : found ≠ '\r' := fun same => absurd low (by rw [same]; decide)
  have visible : Not (found.toNat < 32 ∨ found.toNat = 127) := by omega
  unfold letter
  rw [if_neg (not_or.mpr ⟨noQuote, backslash⟩), if_neg tab, if_neg newline, if_neg carriage,
    if_neg visible, if_pos printable]

theorem flatMap_plain {quote : Char} (plain : ∀ found ∈ part, printing.Plain found)
    (isQuote : quote = '\'' ∨ quote = '"') : part.flatMap (printing.letter quote) = part := by
  induction part with
  | nil => rfl
  | cons found rest ih =>
    rw [List.flatMap_cons, letter_plain (plain found List.mem_cons_self) isQuote,
      ih fun other member => plain other (List.mem_cons_of_mem _ member)]
    rfl

theorem quoteFor_cases (text : List Char) : quoteFor text = '\'' ∨ quoteFor text = '"' := by
  unfold quoteFor
  split
  · exact .inr rfl
  · exact .inl rfl

theorem infix_quoted {text : String} (plain : ∀ found ∈ part, printing.Plain found)
    (here : part <:+: text.toList) : part <:+: printing.quoted text := by
  rcases here with ⟨before, after, whole⟩
  unfold quoted
  dsimp only
  rw [← whole, List.flatMap_append, List.flatMap_append, flatMap_plain plain (quoteFor_cases _)]
  exact (List.infix_append _ part _).trans ⟨[_], [_], rfl⟩

theorem infix_append_of_or {first second : List Char}
    (either : part <:+: first ∨ part <:+: second) : part <:+: first ++ second := by
  rcases either with here | there
  · exact here.trans (List.prefix_append first second).isInfix
  · exact there.trans (List.suffix_append first second).isInfix

mutual

theorem infix_repr (plain : ∀ found ∈ part, printing.Plain found) : ∀ value : Json,
    (∃ text ∈ textsOf value, part <:+: text.toList) -> part <:+: printing.repr value
  | .str text, here => by
    rcases here with ⟨found, member, inside⟩
    cases List.mem_singleton.mp member
    exact infix_quoted plain inside
  | .arr items, here => (infix_reprItems plain items here).trans ⟨['['], [']'], rfl⟩
  | .obj fields, here => (infix_reprFields plain fields here).trans ⟨['\x7b'], ['\x7d'], rfl⟩
  | .null, here => nomatch here
  | .bool _, here => nomatch here
  | .int _, here => nomatch here
  | .float _, here => nomatch here

theorem infix_reprItems (plain : ∀ found ∈ part, printing.Plain found) : ∀ items : List Json,
    (∃ text ∈ textsOfItems items, part <:+: text.toList) -> part <:+: printing.reprItems items
  | [], here => nomatch here
  | item :: rest, here => by
    rcases here with ⟨text, member, inside⟩
    unfold reprItems
    rcases List.mem_append.mp member with first | later
    · exact infix_append_of_or (.inl (infix_repr plain item ⟨text, first, inside⟩))
    · have others := infix_reprItems plain rest ⟨text, later, inside⟩
      cases rest with
      | nil => cases later
      | cons next more => exact infix_append_of_or (.inr (infix_append_of_or (.inr others)))

theorem infix_reprFields (plain : ∀ found ∈ part, printing.Plain found) :
    ∀ fields : List (String × Json), (∃ text ∈ textsOfFields fields, part <:+: text.toList) ->
      part <:+: printing.reprFields fields
  | [], here => nomatch here
  | (name, value) :: rest, here => by
    rcases here with ⟨text, member, inside⟩
    unfold reprFields
    rcases List.mem_cons.mp member with rfl | member
    · have named := @infix_append_of_or _ _ ": ".toList (.inl (infix_quoted plain inside))
      exact infix_append_of_or (.inl (infix_append_of_or (.inl named)))
    · rcases List.mem_append.mp member with first | later
      · have valued := infix_repr plain value ⟨text, first, inside⟩
        exact infix_append_of_or (.inl (infix_append_of_or (.inr valued)))
      · have others := infix_reprFields plain rest ⟨text, later, inside⟩
        cases rest with
        | nil => cases later
        | cons next more => exact infix_append_of_or (.inr (infix_append_of_or (.inr others)))

end

end Printing

end Text
end BreadMind
