import BreadMind.Text.Replacement
import Mathlib.Data.List.Forall2

namespace BreadMind
namespace Regex

/-!
# Replacing part by part

A pass over a text puts tokens where it finds something.  In a text written in
parts it may find something that reaches over several of them; where it does
not, texts which differ in their hidden parts only still do so behind the pass.
-/

/-- What is found in a text, each find behind its gap, and the text that is left. -/
abbrev Cut := List (List Char × List Char) × List Char

def Cut.append (one other : Cut) : Cut :=
  match other.1 with
  | [] => (one.1, one.2 ++ other.2)
  | (gap, found) :: rest => (one.1 ++ (one.2 ++ gap, found) :: rest, other.2)

/-- The gaps with these tokens behind them, and the tail. -/
def weave (tail : List Char) : List (List Char × List Char) -> List (List Char) -> List Char
  | (gap, _) :: rest, token :: tokens => gap ++ token ++ weave tail rest tokens
  | _ :: _, [] => tail
  | [], _ => tail

/-- A part of a text is read as it is, or is masked. -/
inductive Part where
  | plain (text : List Char)
  | hidden (text : List Char)
deriving DecidableEq

def Part.text : Part -> List Char
  | .plain text => text
  | .hidden text => text

def written (parts : List Part) : List Char := parts.flatMap Part.text

def findEach (find : List Char -> Cut) : List Part -> Cut
  | [] => ([], [])
  | part :: rest => (find part.text).append (findEach find rest)

/-- Of a hidden part nothing is found, or all of it. -/
def Part.Whole (find : List Char -> Cut) : Part -> Prop
  | .plain _ => True
  | .hidden text => find text = ([], text) ∨ find text = ([([], text)], [])

instance Part.decidableWhole (find : List Char -> Cut) : DecidablePred (Part.Whole find)
  | .plain _ => .isTrue trivial
  | .hidden text => inferInstanceAs (Decidable (find text = _ ∨ find text = _))

/-- In the whole text the same is found as in its parts. -/
def FindsEach (find : List Char -> Cut) (parts : List Part) : Prop :=
  find (written parts) = findEach find parts ∧ ∀ part ∈ parts, part.Whole find

instance (find : List Char -> Cut) (parts : List Part) : Decidable (FindsEach find parts) :=
  inferInstanceAs (Decidable (_ ∧ _))

/-! ## The parts behind a pass -/

def cutPlain (tail : List Char) : List (List Char × List Char) -> List (List Char) -> List Part
  | (gap, _) :: rest, token :: tokens => .plain gap :: .hidden token :: cutPlain tail rest tokens
  | _ :: _, [] => [.plain tail]
  | [], _ => [.plain tail]

def cutPart (find : List Char -> Cut) : Part -> List (List Char) -> List Part
  | .plain text, tokens => cutPlain (find text).2 (find text).1 tokens
  | .hidden text, [] => [.hidden text]
  | .hidden _, token :: _ => [.hidden token]

def cutParts (find : List Char -> Cut) : List Part -> List (List Char) -> List Part
  | [], _ => []
  | part :: rest, tokens =>
    cutPart find part (tokens.take (find part.text).1.length) ++
      cutParts find rest (tokens.drop (find part.text).1.length)

/-- The texts are the same apart from hidden parts. -/
inductive SamePlain : Part -> Part -> Prop
  | plain (text : List Char) : SamePlain (.plain text) (.plain text)
  | hidden (one other : List Char) : SamePlain (.hidden one) (.hidden other)

variable {find : List Char -> Cut} {parts : List Part} {tokens : List (List Char)}

theorem written_append (parts rest : List Part) :
    written (parts ++ rest) = written parts ++ written rest :=
  List.flatMap_append

theorem written_cons (part : Part) (rest : List Part) :
    written (part :: rest) = part.text ++ written rest :=
  List.flatMap_cons

theorem Cut.length_append (one other : Cut) :
    (one.append other).1.length = one.1.length + other.1.length := by
  unfold Cut.append
  split
  case h_1 none => rw [none, List.length_nil, Nat.add_zero]
  case h_2 some => rw [some, List.length_append, List.length_cons, List.length_cons]

theorem weave_append {one other : Cut} {others : List (List Char)}
    (count : tokens.length = one.1.length) (otherCount : others.length = other.1.length) :
    weave (one.append other).2 (one.append other).1 (tokens ++ others) =
      weave one.2 one.1 tokens ++ weave other.2 other.1 others := by
  rcases one with ⟨pieces, tail⟩
  rcases other with ⟨later, last⟩
  -- The gap of the next find begins with the tail, so the other cut is taken apart first.
  cases later with
  | nil =>
    rw [List.length_eq_zero_iff.mp otherCount, List.append_nil]
    induction pieces generalizing tokens with
    | nil => rfl
    | cons piece pieces ih =>
      cases tokens with
      | nil => cases count
      | cons token tokens =>
        have later := ih (Nat.succ.inj count)
        dsimp only [Cut.append, weave] at later ⊢
        rw [later]
        simp only [List.append_assoc]
  | cons next later =>
    cases others with
    | nil => cases otherCount
    | cons other others =>
      induction pieces generalizing tokens with
      | nil =>
        rw [List.length_eq_zero_iff.mp count, List.nil_append]
        dsimp only [Cut.append, List.nil_append, weave]
        simp only [List.append_assoc]
      | cons piece pieces ih =>
        cases tokens with
        | nil => cases count
        | cons token tokens =>
          have later := ih (Nat.succ.inj count)
          dsimp only [Cut.append, List.cons_append, weave] at later ⊢
          rw [later]
          simp only [List.append_assoc]

theorem written_cutPlain (tail : List Char) {pieces : List (List Char × List Char)}
    (count : tokens.length = pieces.length) :
    written (cutPlain tail pieces tokens) = weave tail pieces tokens := by
  induction pieces generalizing tokens with
  | nil => exact List.append_nil tail
  | cons piece pieces ih =>
    cases tokens with
    | nil => cases count
    | cons token tokens =>
      dsimp only [cutPlain, weave]
      rw [written_cons, written_cons, ih (Nat.succ.inj count), List.append_assoc]
      rfl

theorem written_cutPart {part : Part} (whole : part.Whole find)
    (count : tokens.length = (find part.text).1.length) :
    written (cutPart find part tokens) = weave (find part.text).2 (find part.text).1 tokens := by
  cases part with
  | plain text => exact written_cutPlain _ count
  | hidden text =>
    dsimp only [Part.text] at count ⊢
    rcases whole with nothing | entire
    · rw [nothing] at count ⊢
      rw [List.length_eq_zero_iff.mp count]
      exact List.append_nil text
    · rw [entire] at count ⊢
      rcases List.length_eq_one_iff.mp count with ⟨token, rfl⟩
      rfl

theorem length_shares {part : Part} {rest : List Part}
    (count : tokens.length = (findEach find (part :: rest)).1.length) :
    (tokens.take (find part.text).1.length).length = (find part.text).1.length ∧
      (tokens.drop (find part.text).1.length).length = (findEach find rest).1.length := by
  dsimp only [findEach] at count
  rw [Cut.length_append] at count
  rw [List.length_take, List.length_drop]
  omega

theorem written_cutParts (whole : ∀ part ∈ parts, part.Whole find)
    (count : tokens.length = (findEach find parts).1.length) : written (cutParts find parts tokens) =
      weave (findEach find parts).2 (findEach find parts).1 tokens := by
  induction parts generalizing tokens with
  | nil => rfl
  | cons part rest ih =>
    have ⟨taken, left⟩ := length_shares count
    dsimp only [findEach] at count ⊢
    have joined := weave_append taken left
    rw [List.take_append_drop] at joined
    rw [joined, ← ih (fun other member => whole other (List.mem_cons_of_mem part member)) left,
      ← written_cutPart (whole part List.mem_cons_self) taken, ← written_append]
    rfl

/-! ## Two texts -/

theorem cutPlain_samePlain (tail : List Char) {pieces : List (List Char × List Char)}
    {others : List (List Char)} (count : tokens.length = pieces.length)
    (otherCount : others.length = pieces.length) :
    List.Forall₂ SamePlain (cutPlain tail pieces tokens) (cutPlain tail pieces others) := by
  induction pieces generalizing tokens others with
  | nil => exact .cons (.plain tail) .nil
  | cons piece pieces ih =>
    cases tokens with
    | nil => cases count
    | cons token tokens =>
      cases others with
      | nil => cases otherCount
      | cons other others =>
        exact .cons (.plain piece.1) (.cons (.hidden token other)
          (ih (Nat.succ.inj count) (Nat.succ.inj otherCount)))

theorem cutPart_samePlain {part other : Part} {others : List (List Char)} (same : SamePlain part other)
    (count : tokens.length = (find part.text).1.length)
    (otherCount : others.length = (find other.text).1.length) :
    List.Forall₂ SamePlain (cutPart find part tokens) (cutPart find other others) := by
  cases same with
  | plain text => exact cutPlain_samePlain _ count otherCount
  | hidden one other => cases tokens <;> cases others <;> exact .cons (.hidden _ _) .nil

theorem cutParts_samePlain {otherParts : List Part} {others : List (List Char)}
    (same : List.Forall₂ SamePlain parts otherParts)
    (count : tokens.length = (findEach find parts).1.length)
    (otherCount : others.length = (findEach find otherParts).1.length) :
    List.Forall₂ SamePlain (cutParts find parts tokens) (cutParts find otherParts others) := by
  induction same generalizing tokens others with
  | nil => exact .nil
  | cons here _ ih =>
    dsimp only [findEach] at count otherCount
    rw [Cut.length_append] at count otherCount
    refine List.rel_append (cutPart_samePlain here ?_ ?_) (ih ?_ ?_)
    · rw [List.length_take]
      omega
    · rw [List.length_take]
      omega
    · rw [List.length_drop]
      omega
    · rw [List.length_drop]
      omega

variable {text : List Char}

theorem hidden_mem_cutPlain {tail : List Char} {pieces : List (List Char × List Char)}
    (member : .hidden text ∈ cutPlain tail pieces tokens) : text ∈ tokens := by
  induction pieces generalizing tokens with
  | nil => cases List.mem_singleton.mp member
  | cons piece pieces ih =>
    cases tokens with
    | nil => cases List.mem_singleton.mp member
    | cons token tokens =>
      rcases List.mem_cons.mp member with impossible | member
      · cases impossible
      rcases List.mem_cons.mp member with same | later
      · cases same
        exact List.mem_cons_self
      · exact List.mem_cons_of_mem token (ih later)

theorem hidden_mem_cutPart {part : Part} (count : tokens.length = (find part.text).1.length)
    (member : .hidden text ∈ cutPart find part tokens) :
    text ∈ tokens ∨ (part = .hidden text ∧ (find text).1 = []) := by
  cases part with
  | plain other => exact .inl (hidden_mem_cutPlain member)
  | hidden other =>
    cases tokens with
    | nil =>
      cases List.mem_singleton.mp member
      exact .inr ⟨rfl, List.length_eq_zero_iff.mp count.symm⟩
    | cons token tokens =>
      cases List.mem_singleton.mp member
      exact .inl List.mem_cons_self

theorem hidden_mem_cutParts (count : tokens.length = (findEach find parts).1.length)
    (member : .hidden text ∈ cutParts find parts tokens) :
    text ∈ tokens ∨ (.hidden text ∈ parts ∧ (find text).1 = []) := by
  induction parts generalizing tokens with
  | nil => cases member
  | cons part rest ih =>
    have ⟨taken, left⟩ := length_shares count
    rcases List.mem_append.mp member with here | later
    · rcases hidden_mem_cutPart taken here with token | ⟨rfl, kept⟩
      · exact .inl (List.mem_of_mem_take token)
      · exact .inr ⟨List.mem_cons_self, kept⟩
    · rcases ih left later with token | kept
      · exact .inl (List.mem_of_mem_drop token)
      · exact .inr ⟨List.mem_cons_of_mem part kept.1, kept.2⟩

/-! ## Passes -/

/-- A pass puts a token in the place of each find; it carries a state along. -/
structure Pass (State : Type) (Token : List Char -> Prop) where
  run : List Char × State -> List Char × State
  find : List Char -> Cut
  tokens : State -> Cut -> List (List Char)
  weaves : ∀ text state,
    (run (text, state)).1 = weave (find text).2 (find text).1 (tokens state (find text))
  count : ∀ state cut, (tokens state cut).length = cut.1.length
  areTokens : ∀ state cut, ∀ token ∈ tokens state cut, Token token

variable {State : Type} {Token : List Char -> Prop}

def Pass.cut (pass : Pass State Token) (state : State) (parts : List Part) : List Part :=
  cutParts pass.find parts (pass.tokens state (pass.find (written parts)))

theorem Pass.written_cut (pass : Pass State Token) (state : State) {parts : List Part}
    (finds : FindsEach pass.find parts) :
    written (pass.cut state parts) = (pass.run (written parts, state)).1 := by
  have count := pass.count state (pass.find (written parts))
  rw [pass.weaves]
  unfold Pass.cut
  rw [finds.1] at count ⊢
  exact written_cutParts finds.2 count

/-- Each of the passes finds in the text, as the ones before have left it, what it
finds in the parts. -/
def FindsAll : List (Pass State Token) -> State -> List Part -> Prop
  | [], _, _ => True
  | pass :: passes, state, parts => FindsEach pass.find parts ∧
      FindsAll passes (pass.run (written parts, state)).2 (pass.cut state parts)

instance decidableFindsAll : ∀ (passes : List (Pass State Token)) (state : State) (parts : List Part),
    Decidable (FindsAll passes state parts)
  | [], _, _ => .isTrue trivial
  | pass :: passes, state, parts =>
    @instDecidableAnd _ _ _ (decidableFindsAll passes (pass.run (written parts, state)).2
      (pass.cut state parts))

def cutAll : List (Pass State Token) -> State -> List Part -> List Part
  | [], _, parts => parts
  | pass :: passes, state, parts =>
    cutAll passes (pass.run (written parts, state)).2 (pass.cut state parts)

/-- What is hidden is a token or will be found. -/
def Due (Token : List Char -> Prop) (passes : List (Pass State Token)) (parts : List Part) : Prop :=
  ∀ text, .hidden text ∈ parts -> Token text ∨ ∃ pass ∈ passes, (pass.find text).1 ≠ []

variable {passes : List (Pass State Token)} {state : State}

theorem FindsAll.written_cutAll (finds : FindsAll passes state parts) :
    written (cutAll passes state parts) =
      (passes.foldl (fun text pass => pass.run text) (written parts, state)).1 := by
  induction passes generalizing state parts with
  | nil => rfl
  | cons pass passes ih =>
    have later := ih finds.2
    rw [pass.written_cut state finds.1] at later
    exact later

theorem FindsAll.hidden (finds : FindsAll passes state parts) (due : Due Token passes parts) :
    ∀ text, .hidden text ∈ cutAll passes state parts -> Token text := by
  induction passes generalizing state parts with
  | nil =>
    intro text member
    rcases due text member with token | ⟨pass, impossible, _⟩
    · exact token
    · cases impossible
  | cons pass passes ih =>
    refine ih finds.2 ?_
    intro text member
    have count := pass.count state (pass.find (written parts))
    rw [finds.1.1] at count
    unfold Pass.cut at member
    rw [finds.1.1] at member
    rcases hidden_mem_cutParts count member with token | ⟨before, kept⟩
    · exact .inl (pass.areTokens _ _ text token)
    · rcases due text before with token | ⟨other, member, some⟩
      · exact .inl token
      · rcases List.mem_cons.mp member with rfl | later
        · exact (some kept).elim
        · exact .inr ⟨other, later, some⟩

theorem FindsAll.samePlain {others : List Part} {otherState : State}
    (same : List.Forall₂ SamePlain parts others) (finds : FindsAll passes state parts)
    (otherFinds : FindsAll passes otherState others) :
    List.Forall₂ SamePlain (cutAll passes state parts) (cutAll passes otherState others) := by
  induction passes generalizing state otherState parts others with
  | nil => exact same
  | cons pass passes ih =>
    refine ih ?_ finds.2 otherFinds.2
    have count := pass.count state (pass.find (written parts))
    have otherCount := pass.count otherState (pass.find (written others))
    rw [finds.1.1] at count
    rw [otherFinds.1.1] at otherCount
    unfold Pass.cut
    rw [finds.1.1, otherFinds.1.1]
    exact cutParts_samePlain same count otherCount

/-- The texts are the same apart from parts of which all are of a kind. -/
def ApartIn (kind : List Char -> Prop) (one other : List Char) : Prop :=
  ∃ parts others, one = written parts ∧ other = written others ∧ List.Forall₂ SamePlain parts others ∧
    ∀ text, .hidden text ∈ parts ++ others -> kind text

theorem FindsAll.apartIn {others : List Part} {otherState : State}
    (same : List.Forall₂ SamePlain parts others) (finds : FindsAll passes state parts)
    (otherFinds : FindsAll passes otherState others) (due : Due Token passes (parts ++ others)) :
    ApartIn Token (passes.foldl (fun text pass => pass.run text) (written parts, state)).1
      (passes.foldl (fun text pass => pass.run text) (written others, otherState)).1 := by
  refine ⟨_, _, finds.written_cutAll.symm, otherFinds.written_cutAll.symm,
    finds.samePlain same otherFinds, ?_⟩
  intro text member
  rcases List.mem_append.mp member with here | there
  · exact finds.hidden (fun text member => due text (List.mem_append_left others member)) text here
  · exact otherFinds.hidden (fun text member => due text (List.mem_append_right parts member)) text there

end Regex
end BreadMind
