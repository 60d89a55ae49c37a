import Mathlib.Data.List.Basic
import Mathlib.Data.List.TakeWhile

namespace BreadMind
namespace Text

/-!
# Cutting a text at a separator

A text is cut at the first separator, and what stands behind it as often as there
are parts left to make, so the last part may hold separators itself.
-/

variable {separator : Char} {text before after : List Char}

def cut (separator : Char) (text : List Char) : Option (List Char × List Char) :=
  if separator ∈ text then
    some (text.takeWhile (· ≠ separator), (text.dropWhile (· ≠ separator)).tail)
  else none

def splitN (separator : Char) : Nat -> List Char -> List (List Char)
  | 0, _ => []
  | 1, text => [text]
  | more + 2, text =>
    match cut separator text with
    | none => [text]
    | some (before, after) => before :: splitN separator (more + 1) after

theorem cut_append (absent : separator ∉ before) (after : List Char) :
    cut separator (before ++ separator :: after) = some (before, after) := by
  let other : Char -> Bool := fun letter => decide (letter ≠ separator)
  have apart : ∀ letter ∈ before, other letter = true :=
    fun letter member => decide_eq_true fun same => absent (same ▸ member)
  have stops : Not (other separator = true) := fun impossible => of_decide_eq_true impossible rfl
  unfold cut
  rw [if_pos (List.mem_append_right before List.mem_cons_self)]
  rw [List.takeWhile_append_of_pos apart, List.takeWhile_cons_of_neg (p := other) stops]
  rw [List.dropWhile_append_of_pos apart, List.dropWhile_cons_of_neg (p := other) stops]
  rw [List.append_nil]
  rfl

theorem splitN_three {first second : List Char} (firstFree : separator ∉ first)
    (secondFree : separator ∉ second) (rest : List Char) :
    splitN separator 3 (first ++ separator :: (second ++ separator :: rest)) =
      [first, second, rest] := by
  unfold splitN
  rw [cut_append firstFree]
  dsimp only
  unfold splitN
  rw [cut_append secondFree]
  rfl

/-- What stands behind the first place where the separator occurs. -/
def behind (separator : List Char) : List Char -> Option (List Char)
  | [] => if separator = [] then some [] else none
  | letter :: rest =>
    if separator.isPrefixOf (letter :: rest) = true then
      some ((letter :: rest).drop separator.length)
    else behind separator rest

theorem prefix_before_separator {separator : List Char} (letter : Char) (before after : List Char) :
    separator <+: letter :: before ++ separator ++ after <->
      separator <+: letter :: before ++ separator.dropLast := by
  have early : letter :: before ++ separator.dropLast <+: letter :: before ++ separator ++ after := by
    rw [List.append_assoc _ separator]
    exact (List.prefix_append_right_inj _).mpr
      ((List.dropLast_prefix separator).trans (List.prefix_append separator after))
  constructor
  · intro first
    refine List.prefix_of_prefix_length_le first early ?_
    simp only [List.length_append, List.length_cons, List.length_dropLast]
    omega
  · exact fun first => first.trans early

theorem behind_append {separator : List Char} (some' : separator ≠ []) (before after : List Char)
    (apart : Not (separator <:+: before ++ separator.dropLast)) :
    behind separator (before ++ separator ++ after) = some after := by
  induction before with
  | nil =>
    rcases List.exists_cons_of_ne_nil some' with ⟨letter, rest, rfl⟩
    have first : (letter :: rest).isPrefixOf (letter :: rest ++ after) = true :=
      List.isPrefixOf_iff_prefix.mpr (List.prefix_append _ _)
    simp only [List.nil_append, List.cons_append] at first ⊢
    rw [behind, if_pos first]
    exact congrArg some List.drop_left
  | cons letter before ih =>
    rw [List.cons_append, List.infix_cons_iff] at apart
    have later : Not (separator.isPrefixOf (letter :: before ++ separator ++ after) = true) :=
      fun first => apart (.inl ((prefix_before_separator letter before after).mp
        (List.isPrefixOf_iff_prefix.mp first)))
    simp only [List.cons_append] at later ⊢
    rw [behind, if_neg later]
    exact ih fun inside => apart (.inr inside)

theorem behind_append_longer {separator : List Char} (before after : List Char)
    (inside : separator <:+: before ++ separator.dropLast) (some' : separator ≠ []) :
    ∃ rest, behind separator (before ++ separator ++ after) = some rest ∧
      after.length < rest.length := by
  induction before with
  | nil =>
    have short := inside.length_le
    rw [List.nil_append, List.length_dropLast] at short
    have positive := List.length_pos_of_ne_nil some'
    omega
  | cons letter before ih =>
    by_cases first : separator <+: letter :: before ++ separator ++ after
    · have found := List.isPrefixOf_iff_prefix.mpr first
      simp only [List.cons_append] at found ⊢
      rw [behind, if_pos found]
      refine ⟨_, rfl, ?_⟩
      simp only [List.length_drop, List.length_cons, List.length_append]
      omega
    · have notFound : Not (separator.isPrefixOf (letter :: before ++ separator ++ after) = true) :=
        fun found => first (List.isPrefixOf_iff_prefix.mp found)
      rw [prefix_before_separator] at first
      simp only [List.cons_append] at notFound ⊢
      rw [behind, if_neg notFound]
      rw [List.cons_append] at inside first
      exact ih ((List.infix_cons_iff.mp inside).resolve_left first)

theorem behind_append_iff {separator : List Char} (some' : separator ≠ []) (before after : List Char) :
    behind separator (before ++ separator ++ after) = some after <->
      Not (separator <:+: before ++ separator.dropLast) := by
  constructor
  · intro found inside
    rcases behind_append_longer before after inside some' with ⟨rest, longer, more⟩
    cases found.symm.trans longer
    exact Nat.lt_irrefl _ more
  · exact behind_append some' before after

end Text
end BreadMind
