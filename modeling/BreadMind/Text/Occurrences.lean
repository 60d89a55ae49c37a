import Mathlib.Data.List.Basic
import Mathlib.Algebra.GroupWithZero.Nat

namespace BreadMind
namespace Text

/-!
# The occurrences of a word in a text

A text is cut into the gaps between the occurrences of a word, found from the
left and without overlap.  Counting them and replacing them are both read off
the gaps.  The empty word occurs before, between and behind all letters.
-/

variable {Letter : Type} [DecidableEq Letter]

/-- The first gap and the other ones; so many letters still belong to the last occurrence. -/
def gapsFrom (word : List Letter) : Nat -> List Letter -> List Letter × List (List Letter)
  | _, [] => ([], [])
  | skipped + 1, _ :: rest => gapsFrom word skipped rest
  | 0, letter :: rest =>
    if word.isPrefixOf (letter :: rest) = true then
      let others := gapsFrom word (word.length - 1) rest
      ([], others.1 :: others.2)
    else
      let others := gapsFrom word 0 rest
      (letter :: others.1, others.2)

def gaps (word text : List Letter) : List Letter × List (List Letter) :=
  if word = [] then ([], text.map (fun letter => [letter]) ++ [[]]) else gapsFrom word 0 text

omit [DecidableEq Letter] in
def rejoin (word first : List Letter) (others : List (List Letter)) : List Letter :=
  first ++ others.flatMap fun gap => word ++ gap

def occurrences (word text : List Letter) : Nat := (gaps word text).2.length

def replaceEvery (word other text : List Letter) : List Letter :=
  rejoin other (gaps word text).1 (gaps word text).2

def replaceFirst (word other text : List Letter) : List Letter :=
  match gaps word text with
  | (first, []) => first
  | (first, gap :: rest) => first ++ (other ++ rejoin word gap rest)

/-- The word stands between these two parts of the text, and at no other place. -/
structure Once (word text before after : List Letter) : Prop where
  split : text = before ++ (word ++ after)
  only : ∀ earlier later, text = earlier ++ (word ++ later) -> earlier = before

/-- The word does not begin in a gap, except behind it. -/
def Leftmost (word : List Letter) : List Letter -> List (List Letter) -> Prop
  | gap, [] => Not (word <:+: gap)
  | gap, next :: rest => Not (word <:+: gap ++ word.dropLast) ∧ Leftmost word next rest

/-- The text is cut at all occurrences of the word, the leftmost ones where they overlap. -/
structure Cut (word text first : List Letter) (others : List (List Letter)) : Prop where
  joined : rejoin word first others = text
  leftmost : word ≠ [] -> Leftmost word first others
  letters : word = [] -> first = [] ∧ others = text.map (fun letter => [letter]) ++ [[]]

variable {word other text : List Letter}

/-! ## The gaps -/

omit [DecidableEq Letter] in
theorem rejoin_cons (first gap : List Letter) (rest : List (List Letter)) :
    rejoin word first (gap :: rest) = first ++ (word ++ rejoin word gap rest) := by
  unfold rejoin
  rw [List.flatMap_cons, List.append_assoc]

omit [DecidableEq Letter] in
theorem rejoin_letter (letter : Letter) (first : List Letter) (others : List (List Letter)) :
    rejoin word (letter :: first) others = letter :: rejoin word first others := rfl

theorem rejoin_gapsFrom (some' : word ≠ []) (skipped : Nat) (text : List Letter) :
    rejoin word (gapsFrom word skipped text).1 (gapsFrom word skipped text).2 = text.drop skipped := by
  induction text generalizing skipped with
  | nil =>
    rw [List.drop_nil]
    cases skipped <;> rfl
  | cons letter rest ih =>
    cases skipped with
    | succ skipped => exact ih skipped
    | zero =>
      unfold gapsFrom
      split
      case isTrue found =>
        dsimp only
        rw [rejoin_cons, ih, List.nil_append, List.drop_zero]
        rcases List.isPrefixOf_iff_prefix.mp found with ⟨after, whole⟩
        rcases List.exists_cons_of_ne_nil some' with ⟨head, tail, rfl⟩
        rw [List.cons_append, List.cons.injEq] at whole
        rw [← whole.2, List.length_cons, Nat.add_sub_cancel, List.drop_left, whole.1.symm]
        rfl
      case isFalse =>
        dsimp only
        rw [rejoin_letter, ih, List.drop_zero, List.drop_zero]

theorem leftmost_gapsFrom (some' : word ≠ []) (skipped : Nat) (text : List Letter) :
    Leftmost word (gapsFrom word skipped text).1 (gapsFrom word skipped text).2 := by
  have noInfix : Not (word <:+: ([] : List Letter)) := fun inside =>
    some' (List.infix_nil.mp inside)
  induction text generalizing skipped with
  | nil => cases skipped <;> exact noInfix
  | cons letter rest ih =>
    cases skipped with
    | succ skipped => exact ih skipped
    | zero =>
      have joined := rejoin_gapsFrom some' 0 rest
      have later := ih 0
      unfold gapsFrom
      split
      case isTrue =>
        refine ⟨fun inside => ?_, ih _⟩
        have short := inside.length_le
        rw [List.nil_append, List.length_dropLast] at short
        have positive := List.length_pos_of_ne_nil some'
        omega
      case isFalse notFound =>
        dsimp only
        rw [List.drop_zero] at joined
        rw [List.isPrefixOf_iff_prefix] at notFound
        generalize gapsFrom word 0 rest = cut at joined later
        rcases cut with ⟨first, others⟩
        cases others with
        | nil =>
          rw [rejoin, List.flatMap_nil, List.append_nil] at joined
          cases joined
          exact fun inside => (List.infix_cons_iff.mp inside).elim notFound later
        | cons gap others =>
          refine ⟨fun inside => ?_, later.2⟩
          rw [List.cons_append] at inside
          refine (List.infix_cons_iff.mp inside).elim (fun atStart => notFound ?_) later.1
          refine atStart.trans ?_
          rw [← joined, rejoin_cons, List.cons_prefix_cons]
          refine ⟨rfl, (List.prefix_append_right_inj first).mpr ?_⟩
          exact (List.dropLast_prefix word).trans (List.prefix_append word _)

theorem cut_gaps (word text : List Letter) : Cut word text (gaps word text).1 (gaps word text).2 := by
  unfold gaps
  split
  case isTrue empty =>
    refine ⟨?_, fun some' => absurd empty some', fun _ => ⟨rfl, rfl⟩⟩
    rw [empty]
    simp only [rejoin, List.nil_append, List.flatMap_append, List.flatMap_singleton, List.append_nil]
    rw [List.flatMap_id']
    induction text with
    | nil => rfl
    | cons letter rest ih =>
      rw [List.map_cons, List.flatten_cons, ih]
      rfl
  case isFalse some' =>
    refine ⟨?_, fun _ => leftmost_gapsFrom some' 0 text, fun empty => absurd empty some'⟩
    rw [rejoin_gapsFrom some', List.drop_zero]

theorem occurrences_eq_zero_iff : occurrences word text = 0 <-> Not (word <:+: text) := by
  have cut := cut_gaps word text
  unfold occurrences
  generalize gaps word text = these at cut
  rcases these with ⟨first, others⟩
  have joined : rejoin word first others = text := cut.joined
  cases others with
  | nil =>
    refine iff_of_true rfl fun inside => ?_
    by_cases empty : word = []
    · exact List.append_ne_nil_of_right_ne_nil _ (List.cons_ne_nil _ _) (cut.letters empty).2.symm
    · rw [rejoin, List.flatMap_nil, List.append_nil] at joined
      exact cut.leftmost empty (joined ▸ inside)
  | cons gap rest =>
    refine iff_of_false (Nat.succ_ne_zero _) fun absent => absent ?_
    rw [← joined, rejoin_cons]
    exact ⟨first, rejoin word gap rest, List.append_assoc _ _ _⟩

theorem occurrences_of_once {before after : List Letter} (once : Once word text before after) :
    occurrences word text = 1 := by
  have found : occurrences word text ≠ 0 := fun zero => occurrences_eq_zero_iff.mp zero
    (once.split ▸ ⟨before, after, List.append_assoc _ _ _⟩)
  have cut := cut_gaps word text
  unfold occurrences at found ⊢
  generalize gaps word text = these at cut found
  rcases these with ⟨first, others⟩
  have joined : rejoin word first others = text := cut.joined
  match others, found with
  | [gap], _ => rfl
  | gap :: next :: rest, _ =>
    rw [rejoin_cons, rejoin_cons] at joined
    have here := once.only first _ joined.symm
    have there := once.only (first ++ (word ++ gap)) (rejoin word next rest)
      (by rw [← joined, List.append_assoc, List.append_assoc])
    have none' : word ++ gap = [] := List.append_right_eq_self.mp (there.trans here.symm)
    rcases List.append_eq_nil_iff.mp none' with ⟨empty, noGap⟩
    have letters := (cut.letters empty).2
    cases text with
    | nil => cases letters
    | cons letter rest' =>
      rw [List.map_cons, List.cons_append, List.cons.injEq, noGap] at letters
      cases letters.1

theorem gaps_of_once {before after : List Letter} (once : Once word text before after) :
    gaps word text = (before, [after]) := by
  have one := occurrences_of_once once
  have cut := cut_gaps word text
  unfold occurrences at one
  generalize gaps word text = these at cut one
  rcases these with ⟨first, others⟩
  have joined : rejoin word first others = text := cut.joined
  match others, one with
  | [gap], _ =>
    rw [rejoin_cons, rejoin, List.flatMap_nil, List.append_nil] at joined
    have here := once.only first _ joined.symm
    have split := joined.trans once.split
    rw [here, List.append_cancel_left_eq, List.append_cancel_left_eq] at split
    rw [here, split]

theorem replaceFirst_of_one (other : List Letter) (one : occurrences word text = 1) :
    replaceFirst word other text = replaceEvery word other text := by
  unfold occurrences at one
  unfold replaceFirst replaceEvery
  generalize gaps word text = these at one
  rcases these with ⟨first, others⟩
  match others, one with
  | [gap], _ =>
    show first ++ (other ++ rejoin word gap []) = rejoin other first [gap]
    rw [rejoin_cons]
    rfl

theorem count_rejoin (letter : Letter) (word first : List Letter) (others : List (List Letter)) :
    (rejoin word first others).count letter =
      first.count letter + (others.map (List.count letter)).sum + others.length * word.count letter := by
  induction others generalizing first with
  | nil => simp only [rejoin, List.flatMap_nil, List.append_nil, List.map_nil, List.sum_nil,
      List.length_nil, Nat.zero_mul, Nat.add_zero]
  | cons gap rest ih =>
    rw [rejoin_cons, List.count_append, List.count_append, ih, List.map_cons,
      List.sum_cons, List.length_cons, Nat.succ_mul]
    omega

end Text
end BreadMind
