import BreadMind.Text.Regex

namespace BreadMind
namespace Regex

/-!
# Words which replacements do not bring in

When the matches of a pattern are replaced by tokens, a word can only appear
anew if a token takes part in it.  A token in brackets that the word does not
have takes no part, unless it has the whole word inside.
-/

/-- Between texts that do not have the word the token does not make it appear. -/
def Apart (word token : List Char) : Prop :=
  ∀ before after, word <:+: before ++ (token ++ after) -> word <:+: before ∨ word <:+: after

theorem infix_apart {word before after : List Char} {sign : Char} (absent : sign ∉ word)
    (inside : word <:+: before ++ sign :: after) : word <:+: before ∨ word <:+: after := by
  rcases List.infix_append_iff.mp inside with left | right | ⟨first, second, rfl, atEnd, atStart⟩
  · exact .inl left
  · rcases List.infix_cons_iff.mp right with atStart | later
    · cases word with
      | nil => exact .inl List.nil_infix
      | cons letter rest =>
        have same := (List.cons_prefix_cons.mp atStart).1
        exact (absent (same ▸ List.mem_cons_self)).elim
    · exact .inr later
  · cases second with
    | nil =>
      rw [List.append_nil]
      exact .inl atEnd.isInfix
    | cons letter rest =>
      have same := (List.cons_prefix_cons.mp atStart).1
      exact (absent (same ▸ List.mem_append_right first List.mem_cons_self)).elim

theorem apart_of_brackets {word inner : List Char} {opening closing : Char}
    (noOpening : opening ∉ word) (noClosing : closing ∉ word) (outside : Not (word <:+: inner)) :
    Apart word (opening :: (inner ++ [closing])) := by
  intro before after inside
  rw [List.cons_append, List.append_assoc] at inside
  rcases infix_apart noOpening inside with left | right
  · exact .inl left
  · rcases infix_apart noClosing right with within | later
    · exact (outside within).elim
    · exact .inr later

def joined (pieces : List (List Char × List Char)) (tail : List Char) : List Char :=
  pieces.flatMap (fun piece => piece.1 ++ piece.2) ++ tail

theorem joined_cons (gap found : List Char) (rest : List (List Char × List Char))
    (tail : List Char) : joined ((gap, found) :: rest) tail = gap ++ (found ++ joined rest tail) := by
  unfold joined
  rw [List.flatMap_cons, List.append_assoc, List.append_assoc]

theorem scan_joined {isWord : Char -> Bool} {pattern : Pattern} (rounds : Nat) (place : Place) :
    joined (scan isWord pattern rounds place).1 (scan isWord pattern rounds place).2 = place.rest := by
  induction rounds generalizing place with
  | zero => rfl
  | succ rounds ih =>
    unfold scan
    cases found : find isWord pattern place.previous place.rest with
    | none => rfl
    | some first =>
      dsimp only
      split
      case isTrue => rfl
      case isFalse =>
        dsimp only
        rw [joined_cons, ih first.stop]
        exact (find_some found).split.symm

theorem pieces_joined {isWord : Char -> Bool} {pattern : Pattern} (text : List Char) :
    joined (pieces isWord pattern text).1 (pieces isWord pattern text).2 = text :=
  scan_joined _ _

variable {State : Type} {replace : State -> List Char -> List Char × State} {word : List Char}

theorem substitute_free (tokens : ∀ state found, Apart word (replace state found).1)
    {tail : List Char} (last : Not (word <:+: tail)) (pieces : List (List Char × List Char))
    (gaps : ∀ piece ∈ pieces, Not (word <:+: piece.1)) (state : State) :
    Not (word <:+: (substitute replace tail state pieces).1) := by
  induction pieces generalizing state with
  | nil => exact last
  | cons piece rest ih =>
    intro inside
    unfold substitute at inside
    dsimp only at inside
    rw [List.append_assoc] at inside
    rcases tokens _ _ _ _ inside with left | right
    · exact gaps piece List.mem_cons_self left
    · exact ih (fun other member => gaps other (List.mem_cons_of_mem _ member)) _ right

theorem substitute_keeps
    (tokens : ∀ state found, Apart word (replace state found).1 ∨ (replace state found).1 = found)
    (tail : List Char) (pieces : List (List Char × List Char)) (state : State) (before : List Char)
    (inside : word <:+: before ++ (substitute replace tail state pieces).1) :
    word <:+: before ++ joined pieces tail := by
  induction pieces generalizing state before with
  | nil => exact inside
  | cons piece rest ih =>
    rcases piece with ⟨gap, found⟩
    rw [joined_cons]
    unfold substitute at inside
    dsimp only at inside
    rcases tokens state found with apart | same
    · rw [List.append_assoc, ← List.append_assoc before] at inside
      rcases apart _ _ inside with left | right
      · exact left.trans ((List.prefix_append_right_inj before).mpr (List.prefix_append gap _)).isInfix
      · have later := ih _ [] right
        exact later.trans ((List.suffix_append found _).trans
          ((List.suffix_append gap _).trans (List.suffix_append before _))).isInfix
    · rw [same, ← List.append_assoc before] at inside
      have later := ih _ (before ++ (gap ++ found)) inside
      rw [List.append_assoc, List.append_assoc] at later
      exact later

end Regex
end BreadMind
