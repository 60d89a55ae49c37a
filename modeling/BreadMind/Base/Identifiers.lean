import BreadMind.Base.Values
import Mathlib.Data.List.Basic

namespace BreadMind

/-!
# The text of an identifier

Identifiers leave the core as text: `str(uuid)` shows the thirty-two
hexadecimal digits in lower case, in groups of eight, four, four, four and
twelve.  Different identifiers have different texts, all of the same length.
-/

namespace UUID

/-- The positions of the text: a digit counted from the low end, or a dash. -/
def layout : List (Option Nat) :=
  (List.range 32).flatMap fun index =>
    if index ∈ [8, 12, 16, 20] then [none, some (31 - index)] else [some (31 - index)]

def digit (id : UUID) (place : Nat) : Char :=
  Nat.digitChar (id.extractLsb' (4 * place) 4).toNat

def chars (id : UUID) : List Char :=
  layout.map fun position =>
    match position with
    | none => '-'
    | some place => id.digit place

def text (id : UUID) : String :=
  String.ofList id.chars

theorem length_chars (id : UUID) : id.chars.length = 36 := by
  unfold chars
  rw [List.length_map]
  decide

theorem digitChar_injective : ∀ first < 16, ∀ second < 16,
    Nat.digitChar first = Nat.digitChar second -> first = second := by
  decide

variable {first second : UUID}

theorem extract_eq_of_digit {place : Nat} (same : first.digit place = second.digit place) :
    first.extractLsb' (4 * place) 4 = second.extractLsb' (4 * place) 4 :=
  BitVec.eq_of_toNat_eq (digitChar_injective _ (BitVec.isLt _) _ (BitVec.isLt _) same)

theorem chars_injective (same : first.chars = second.chars) : first = second := by
  have every := List.map_inj_left.mp same
  refine BitVec.eq_of_getLsbD_eq ?_
  intro bit inside
  have listed : some (bit / 4) ∈ layout := by
    have places : ∀ place < 32, some place ∈ layout := by decide
    exact places (bit / 4) (by omega)
  have nibble := congrArg (fun digits => digits.getLsbD (bit % 4))
    (extract_eq_of_digit (every _ listed))
  rw [BitVec.getLsbD_extractLsb', BitVec.getLsbD_extractLsb'] at nibble
  have place : 4 * (bit / 4) + bit % 4 = bit := Nat.div_add_mod bit 4
  rw [place] at nibble
  have small : bit % 4 < 4 := Nat.mod_lt _ (by decide)
  simpa only [small, decide_true, Bool.true_and] using nibble

theorem text_injective : Function.Injective text :=
  fun _ _ same => chars_injective (String.ofList_injective same)

theorem text_append_inj {rest more : String}
    (same : first.text ++ rest = second.text ++ more) : first = second := by
  have lists := congrArg String.toList same
  unfold text at lists
  rw [String.toList_append, String.toList_append, String.toList_ofList, String.toList_ofList] at lists
  refine chars_injective (List.append_inj_left lists ?_)
  rw [length_chars, length_chars]

end UUID
end BreadMind
