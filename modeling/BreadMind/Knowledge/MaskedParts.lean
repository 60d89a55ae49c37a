import BreadMind.Knowledge.Masking
import BreadMind.Text.Parts

namespace BreadMind
namespace Knowledge

open Regex

/-!
# Masking part by part

`redact` runs over a text several times: once for each pattern, and once for
each term of the vocabulary.  Two texts which differ in addresses and terms only
are masked alike if each run finds in them what it finds in their parts; where a
number, say, goes on behind a term, the pattern for numbers takes both.
-/

def tokensFor {State : Type} (replace : State -> List Char -> List Char × State) :
    State -> List (List Char × List Char) -> List (List Char)
  | _, [] => []
  | state, (_, found) :: rest =>
    (replace state found).1 :: tokensFor replace (replace state found).2 rest

section
variable {State : Type} {replace : State -> List Char -> List Char × State}

theorem length_tokensFor (state : State) (pieces : List (List Char × List Char)) :
    (tokensFor replace state pieces).length = pieces.length := by
  induction pieces generalizing state with
  | nil => rfl
  | cons piece rest ih => exact congrArg Nat.succ (ih _)

theorem mem_tokensFor {token : List Char} {state : State} {pieces : List (List Char × List Char)}
    (member : token ∈ tokensFor replace state pieces) :
    ∃ state found, token = (replace state found).1 := by
  induction pieces generalizing state with
  | nil => cases member
  | cons piece rest ih =>
    rcases List.mem_cons.mp member with here | later
    · exact ⟨state, piece.2, here⟩
    · exact ih later

theorem substitute_weave (tail : List Char) (state : State) (pieces : List (List Char × List Char)) :
    (Regex.substitute replace tail state pieces).1 =
      weave tail pieces (tokensFor replace state pieces) := by
  induction pieces generalizing state with
  | nil => rfl
  | cons piece rest ih =>
    unfold Regex.substitute
    dsimp only
    rw [ih]
    rfl

end

def onlyChosen (chosen : List Char -> Bool) (tail : List Char) : List (List Char × List Char) -> Cut
  | [] => ([], tail)
  | (gap, found) :: rest =>
    if chosen found then ((gap, found) :: (onlyChosen chosen tail rest).1, (onlyChosen chosen tail rest).2)
    else Cut.append ([], gap ++ found) (onlyChosen chosen tail rest)

theorem tokensFor_append {State : Type} {replace : State -> List Char -> List Char × State}
    (before : List Char) (cut : Cut) (state : State) :
    tokensFor replace state (Cut.append ([], before) cut).1 = tokensFor replace state cut.1 := by
  rcases cut with ⟨pieces, tail⟩
  cases pieces <;> rfl

theorem substitute_chosen {State : Type} (replace : State -> List Char -> List Char × State)
    (chosen : List Char -> Bool) (tail : List Char) (state : State)
    (pieces : List (List Char × List Char)) :
    (Regex.substitute (fun state found => if chosen found then replace state found else (found, state))
      tail state pieces).1 = weave (onlyChosen chosen tail pieces).2 (onlyChosen chosen tail pieces).1
        (tokensFor replace state (onlyChosen chosen tail pieces).1) := by
  induction pieces generalizing state with
  | nil => rfl
  | cons piece rest ih =>
    rcases piece with ⟨gap, found⟩
    unfold Regex.substitute onlyChosen
    cases chosen found with
    | true =>
      dsimp only
      rw [if_pos rfl, if_pos rfl, ih]
      rfl
    | false =>
      dsimp only
      rw [if_neg Bool.false_ne_true, if_neg Bool.false_ne_true, ih, tokensFor_append]
      exact (@weave_append [] ([], gap ++ found) _ _ rfl (length_tokensFor _ _)).symm

/-- The occurrences that `str.replace` takes. -/
def termCut (term : List Char) : Nat -> List Char -> Cut
  | _, [] => ([], [])
  | skipped + 1, _ :: rest => termCut term skipped rest
  | 0, letter :: rest =>
    if term.isPrefixOf (letter :: rest) then
      (([], term) :: (termCut term (term.length - 1) rest).1, (termCut term (term.length - 1) rest).2)
    else Cut.append ([], [letter]) (termCut term 0 rest)

theorem replaceFrom_weave (term token : List Char) (skipped : Nat) (text : List Char) :
    replaceFrom term token skipped text = weave (termCut term skipped text).2 (termCut term skipped text).1
      ((termCut term skipped text).1.map fun _ => token) := by
  have mapped : ∀ (before : List Char) (cut : Cut),
      (Cut.append ([], before) cut).1.map (fun _ => token) = cut.1.map fun _ => token := by
    rintro before ⟨pieces, tail⟩
    cases pieces <;> rfl
  induction text generalizing skipped with
  | nil => cases skipped <;> rfl
  | cons letter rest ih =>
    cases skipped with
    | succ skipped => exact ih skipped
    | zero =>
      unfold replaceFrom termCut
      split
      case isTrue =>
        rw [ih]
        rfl
      case isFalse =>
        rw [ih, mapped]
        exact (@weave_append [] ([], [letter]) _ _ rfl (List.length_map _)).symm

theorem replaceAll_absent {term text : List Char} (token : List Char) (absent : Not (term <:+: text)) :
    replaceAll term token text = text := by
  induction text with
  | nil => rfl
  | cons letter rest ih =>
    have here : Not (term <+: letter :: rest) := fun atStart => absent atStart.isInfix
    have later : Not (term <:+: rest) := fun inside => absent (List.infix_cons inside)
    rw [replaceAll_miss here, ih later]

/-! ## The passes of the redactor -/

def IsToken (text : List Char) : Prop :=
  ∃ kind ∈ tokenKinds, ∃ count, text = '<' :: (tokenName kind count ++ ['>'])

theorem isToken_next {kind : String} (known : kind ∈ tokenKinds) (masking : Masking)
    (original : List Char) : IsToken (masking.next kind original).1 :=
  ⟨kind, known, next_token masking kind original⟩

/-- The tokens of one kind in the place of what is found. -/
def maskingPass (kind : String) (known : kind ∈ tokenKinds) (find : List Char -> Cut)
    (run : List Char × Masking -> List Char × Masking)
    (weaves : ∀ text masking, (run (text, masking)).1 = weave (find text).2 (find text).1
      (tokensFor (fun masking found => masking.next kind found) masking (find text).1)) :
    Pass Masking IsToken where
  run := run
  find := find
  tokens masking cut := tokensFor (fun masking found => masking.next kind found) masking cut.1
  weaves := weaves
  count masking cut := length_tokensFor masking cut.1
  areTokens := by
    intro masking cut token member
    rcases mem_tokensFor member with ⟨later, found, rfl⟩
    exact isToken_next known later found

namespace Redactor

variable (redactor : Redactor)

def patternPass (pattern : Pattern) (kind : String) (known : kind ∈ tokenKinds) :
    Pass Masking IsToken :=
  maskingPass kind known (pieces redactor.classes.isWord pattern) (redactor.subRegex pattern kind)
    fun _ _ => substitute_weave _ _ _

def isInternal (url : List Char) : Bool :=
  redactor.internalDomains.any fun domain => contains url domain

def urlPass : Pass Masking IsToken :=
  maskingPass "INTERNAL_URL" (by decide) (fun text =>
      onlyChosen redactor.isInternal (pieces redactor.classes.isWord redactor.classes.urlPattern text).2
        (pieces redactor.classes.isWord redactor.classes.urlPattern text).1)
    redactor.subUrl fun _ _ => substitute_chosen _ redactor.isInternal _ _ _

def termPass (term : List Char) : Pass Masking IsToken where
  run text := subTerm text term
  find := termCut term 0
  tokens masking cut := cut.1.map fun _ => (masking.next "CLIENT" term).1
  weaves text masking := by
    rw [← replaceFrom_weave]
    unfold subTerm
    split
    case isTrue => rfl
    case isFalse absent =>
      exact (replaceAll_absent _ fun inside => absent ((contains_iff _ _).mpr inside)).symm
  count _ _ := List.length_map _
  areTokens masking cut token member := by
    rcases List.mem_map.mp member with ⟨_, _, rfl⟩
    exact isToken_next (by decide) masking term

/-- What `redact` does, in this order. -/
def passes : List (Pass Masking IsToken) :=
  [redactor.patternPass redactor.classes.emailPattern "EMAIL" (by decide),
    redactor.patternPass redactor.classes.phonePattern "PHONE" (by decide),
    redactor.patternPass slackUserPattern "USER" (by decide), redactor.urlPass,
    redactor.patternPass p4PathPattern "P4_PATH" (by decide)] ++ redactor.vocab.map termPass

theorem redact_eq (text : List Char) :
    redactor.redact text = redactor.passes.foldl (fun text pass => pass.run text) (text, {}) := by
  unfold passes redact subVocab
  rw [List.foldl_append, List.foldl_map]
  simp only [List.foldl_cons, List.foldl_nil, patternPass, urlPass, termPass, maskingPass]

variable {redactor}

/-- An address or a term of the vocabulary. -/
def Maskable (redactor : Redactor) (text : List Char) : Prop :=
  (∃ address : Address redactor.classes, text = address.text) ∨ text ∈ redactor.vocab

theorem pieces_address (address : Address redactor.classes) :
    (pieces redactor.classes.isWord redactor.classes.emailPattern address.text).1 ≠ [] := by
  intro none
  have joined := @pieces_joined redactor.classes.isWord redactor.classes.emailPattern address.text
  rw [none] at joined
  have tail := (@gaps_email redactor.classes address.text).2
  have same : (pieces redactor.classes.isWord redactor.classes.emailPattern address.text).2 = address.text :=
    joined
  rw [same] at tail
  exact tail ⟨address, List.infix_refl _⟩

theorem termCut_self {term : List Char} (named : term ≠ []) : (termCut term 0 term).1 ≠ [] := by
  cases term with
  | nil => exact (named rfl).elim
  | cons letter rest =>
    unfold termCut
    rw [if_pos (List.isPrefixOf_iff_prefix.mpr (List.prefix_refl _))]
    exact List.cons_ne_nil _ _

theorem Maskable.due {text : List Char} (maskable : Maskable redactor text) :
    ∃ pass ∈ redactor.passes, (pass.find text).1 ≠ [] := by
  rcases maskable with ⟨address, rfl⟩ | term
  · exact ⟨_, List.mem_append_left _ List.mem_cons_self, pieces_address address⟩
  · exact ⟨_, List.mem_append_right _ (List.mem_map_of_mem term),
      termCut_self (redactor.named text term)⟩

/-- Each run of `redact` finds in the text what it finds in the parts. -/
def Separates (redactor : Redactor) (parts : List Part) : Prop :=
  FindsAll redactor.passes {} parts

theorem redact_apartIn {parts others : List Part} (same : List.Forall₂ SamePlain parts others)
    (maskable : ∀ text, .hidden text ∈ parts ++ others -> Maskable redactor text)
    (separates : redactor.Separates parts) (otherSeparates : redactor.Separates others) :
    ApartIn IsToken (redactor.redact (written parts)).1 (redactor.redact (written others)).1 := by
  rw [redact_eq, redact_eq]
  exact separates.apartIn same otherSeparates fun text member => .inr (maskable text member).due

def knowing (client : String) (named : client.toList ≠ []) : Redactor where
  classes := .ascii
  highEntropy := fun _ => false
  internalDomains := []
  vocab := [client.toList]
  named := fun term member => List.mem_singleton.mp member ▸ named
  longestFirst := List.pairwise_singleton _ _

example : (knowing "Acme" (by decide)).Separates
    [.plain "ask ".toList, .hidden "Acme".toList, .plain " at 555 1234567".toList] := by
  unfold Separates
  decide +kernel

/-- The pattern for numbers goes on behind the client's own. -/
example : Not ((knowing "4711" (by decide)).Separates
    [.plain "id ".toList, .hidden "4711".toList, .plain " 22 33 44".toList]) := by
  unfold Separates
  decide +kernel

end Redactor

end Knowledge
end BreadMind
