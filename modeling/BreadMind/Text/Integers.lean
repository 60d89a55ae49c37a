import Mathlib.Data.List.DropRight

namespace BreadMind
namespace Text

/-!
# Reading whole numbers

A number may have white space around it, a sign in front, and single underscores
between its digits.  Digits and white space are those of the codes below 128.
-/

def isBlankSpace (letter : Char) : Bool :=
  decide (9 ≤ letter.val ∧ letter.val ≤ 13) || decide (letter.val = 32)

/-- The digits, in groups which single underscores separate. -/
def readDigits (text : List Char) : Option Nat :=
  if (text.splitOn '_').all fun group => !group.isEmpty && group.all Char.isDigit then
    some (Nat.ofDigitChars 10 (text.filter Char.isDigit) 0)
  else none

/-- `int(text)`, or `none` for a `ValueError`. -/
def readInt (text : List Char) : Option Int :=
  match (text.dropWhile isBlankSpace).rdropWhile isBlankSpace with
  | '-' :: digits => (readDigits digits).map fun value => -(value : Int)
  | '+' :: digits => (readDigits digits).map fun value => (value : Int)
  | digits => (readDigits digits).map fun value => (value : Int)

theorem isBlankSpace_of_isDigit {letter : Char} (digit : letter.isDigit = true) :
    isBlankSpace letter = false := by
  unfold Char.isDigit at digit
  rw [Bool.and_eq_true, decide_eq_true_eq, decide_eq_true_eq, ge_iff_le, UInt32.le_iff_toNat_le,
    UInt32.le_iff_toNat_le] at digit
  change 48 ≤ letter.val.toNat ∧ letter.val.toNat ≤ 57 at digit
  unfold isBlankSpace
  simp only [Bool.or_eq_false_iff, decide_eq_false_iff_not, UInt32.le_iff_toNat_le,
    ← UInt32.toNat_inj]
  change Not (9 ≤ letter.val.toNat ∧ letter.val.toNat ≤ 13) ∧ Not (letter.val.toNat = 32)
  omega

variable {text : List Char}

theorem splitOn_digits {separator : Char} (rest : List Char)
    (digits : ∀ letter ∈ text, letter.isDigit = true) (other : separator.isDigit = false) :
    text.splitOn separator = [text] ∧
      (text ++ separator :: rest).splitOn separator = text :: rest.splitOn separator := by
  have apart : ∀ letter ∈ text, (letter == separator) = false := by
    intro letter member
    refine beq_eq_false_iff_ne.mpr fun same => ?_
    rw [← same, digits letter member] at other
    cases other
  exact ⟨List.splitOnP_eq_singleton apart,
    List.splitOnP_append_cons_of_forall_mem apart separator (beq_self_eq_true separator) rest⟩

theorem readDigits_eq (some_ : text ≠ []) (digits : ∀ letter ∈ text, letter.isDigit = true) :
    readDigits text = some (Nat.ofDigitChars 10 text 0) := by
  have whole : text.splitOn '_' = [text] := (splitOn_digits [] digits rfl).1
  have kept : text.filter Char.isDigit = text := List.filter_eq_self.mpr digits
  have group : (!text.isEmpty && text.all Char.isDigit) = true := by
    rw [List.isEmpty_eq_false_iff.mpr some_, List.all_eq_true.mpr digits]
    rfl
  unfold readDigits
  rw [whole, kept, List.all_cons, group, List.all_nil]
  rfl

theorem readInt_digits (some_ : text ≠ []) (digits : ∀ letter ∈ text, letter.isDigit = true) :
    readInt text = some ((Nat.ofDigitChars 10 text 0 : Nat) : Int) := by
  have left : text.dropWhile isBlankSpace = text := by
    cases text with
    | nil => rfl
    | cons first rest =>
      exact List.dropWhile_cons_of_neg
        (Bool.not_eq_true _ ▸ isBlankSpace_of_isDigit (digits first List.mem_cons_self))
  have right : text.rdropWhile isBlankSpace = text := by
    refine List.rdropWhile_eq_self_iff.mpr fun nonempty blank => ?_
    rw [isBlankSpace_of_isDigit (digits _ (List.getLast_mem nonempty))] at blank
    cases blank
  unfold readInt
  rw [left, right]
  split
  · cases digits '-' List.mem_cons_self
  · cases digits '+' List.mem_cons_self
  · rw [readDigits_eq some_ digits]
    rfl

theorem isDigit_of_padded {zeros number : Nat} {letter : Char}
    (member : letter ∈ List.replicate zeros '0' ++ Nat.toDigits 10 number) : letter.isDigit = true := by
  rcases List.mem_append.mp member with zero | digit
  · rw [(List.mem_replicate.mp zero).2]
    rfl
  · exact Nat.isDigit_of_mem_toDigits (by decide) (by decide) digit

theorem readInt_padded (zeros number : Nat) :
    readInt (List.replicate zeros '0' ++ Nat.toDigits 10 number) = some (number : Int) := by
  have some_ : List.replicate zeros '0' ++ Nat.toDigits 10 number ≠ [] :=
    List.append_ne_nil_of_right_ne_nil _ Nat.toDigits_ne_nil
  rw [readInt_digits some_ fun _ => isDigit_of_padded, Nat.ofDigitChars_append,
    Nat.ofDigitChars_replicate_zero, Nat.mul_zero, Nat.ofDigitChars_ten_toDigits]

end Text
end BreadMind
