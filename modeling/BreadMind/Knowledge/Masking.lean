import BreadMind.Knowledge.Redactor
import BreadMind.Text.Replacement
import Mathlib.Data.List.Induction
import Mathlib.Data.List.Infix
import Mathlib.Data.List.TakeWhile

namespace BreadMind
namespace Knowledge

open Regex

/-!
# What masking leaves of a text

A masked text has no address in it, and no term of the vocabulary unless the
tokens themselves spell one.  An address which the pattern for addresses finds
somewhere in a text is an address in the sense of its parts, and the other way
round.
-/

/-- The parts of an address: a word's letter on either side, and between them
what the pattern asks for. -/
structure Address (classes : CharClasses) where
  first : Char
  middle : List Char
  name : List Char
  domain : List Char
  last : Char
  begins : classes.isWord first = true
  isLocal : ∀ letter ∈ middle, classes.isLocal letter = true
  named : name ≠ []
  isName : ∀ letter ∈ name, classes.isName letter = true
  isDomain : ∀ letter ∈ domain, classes.isDomain letter = true
  finishes : classes.isWord last = true

variable {classes : CharClasses}

variable (address : Address classes)

def Address.text : List Char :=
  address.first :: (address.middle ++ '@' :: (address.name ++ '.' :: (address.domain ++ [address.last])))

def HasAddress (classes : CharClasses) (text : List Char) : Prop :=
  ∃ address : Address classes, address.text <:+: text

structure AddressRead (classes : CharClasses) (user name domain : List Char) : Prop where
  some : user ≠ []
  isLocal : ∀ letter ∈ user, classes.isLocal letter = true
  named : name ≠ []
  isName : ∀ letter ∈ name, classes.isName letter = true
  placed : domain ≠ []
  isDomain : ∀ letter ∈ domain, classes.isDomain letter = true

variable {stop : Place}

theorem mem_ends_email {place : Place} : stop ∈ ends classes.isWord classes.emailPattern place <->
      ∃ user name domain,
        AddressRead classes user name domain ∧ place.atBoundary classes.isWord = true ∧
          stop.atBoundary classes.isWord = true ∧
          Reads place (user ++ '@' :: (name ++ '.' :: domain)) stop := by
  unfold CharClasses.emailPattern Pattern.all Pattern.all Pattern.all Pattern.all Pattern.all
    Pattern.all Pattern.all Pattern.all
  constructor
  · intro member
    rcases mem_ends_seq.mp member with ⟨start, opened, fromUser⟩
    rcases mem_ends_boundary.mp opened with ⟨same, startBoundary⟩
    rw [same] at fromUser
    rcases mem_ends_seq.mp fromUser with ⟨_, one, fromSign⟩
    rcases mem_ends_oneOrMore.mp one with ⟨user, some, isLocal, userReads⟩
    rcases mem_ends_seq.mp fromSign with ⟨_, two, fromName⟩
    rcases mem_ends_letter.mp two with ⟨sign, isSign, signReads⟩
    rcases mem_ends_seq.mp fromName with ⟨_, three, fromDot⟩
    rcases mem_ends_oneOrMore.mp three with ⟨name, named, isName, nameReads⟩
    rcases mem_ends_seq.mp fromDot with ⟨_, four, fromDomain⟩
    rcases mem_ends_letter.mp four with ⟨dot, isDot, dotReads⟩
    rcases mem_ends_seq.mp fromDomain with ⟨_, five, atEnd⟩
    rcases mem_ends_oneOrMore.mp five with ⟨domain, placed, isDomain, domainReads⟩
    rcases mem_ends_seq.mp atEnd with ⟨last, closed, nothing⟩
    rcases mem_ends_boundary.mp closed with ⟨stays, stopBoundary⟩
    have finished := List.mem_singleton.mp nothing
    rw [← stays] at stopBoundary domainReads
    rw [← finished] at stopBoundary domainReads
    rw [LawfulBEq.eq_of_beq isSign] at signReads
    rw [LawfulBEq.eq_of_beq isDot] at dotReads
    refine ⟨user, name, domain, ⟨some, isLocal, named, isName, placed, isDomain⟩, startBoundary,
      stopBoundary, ?_⟩
    exact userReads.trans (signReads.trans (nameReads.trans (dotReads.trans domainReads)))
  · rintro ⟨user, name, domain, read, startBoundary, stopBoundary, reads⟩
    rcases place with ⟨previous, rest⟩
    have rest_eq : rest = (user ++ '@' :: (name ++ '.' :: domain)) ++ stop.rest := reads.1
    rw [List.append_assoc, List.cons_append, List.append_assoc, List.cons_append] at rest_eq
    subst rest_eq
    refine mem_ends_seq.mpr ⟨_, mem_ends_boundary.mpr ⟨rfl, startBoundary⟩, ?_⟩
    refine mem_ends_seq.mpr ⟨_, mem_ends_oneOrMore.mpr
      ⟨user, read.some, read.isLocal, reads_text previous user _⟩, ?_⟩
    refine mem_ends_seq.mpr ⟨_, mem_ends_letter.mpr ⟨'@', BEq.rfl, reads_letter _ '@' _⟩, ?_⟩
    refine mem_ends_seq.mpr ⟨_, mem_ends_oneOrMore.mpr
      ⟨name, read.named, read.isName, reads_text _ name _⟩, ?_⟩
    refine mem_ends_seq.mpr ⟨_, mem_ends_letter.mpr ⟨'.', BEq.rfl, reads_letter _ '.' _⟩, ?_⟩
    refine mem_ends_seq.mpr ⟨_, mem_ends_oneOrMore.mpr
      ⟨domain, read.placed, read.isDomain, reads_text _ domain _⟩, ?_⟩
    have same := reads.eq ((reads_text previous user _).trans ((reads_letter _ '@' _).trans
      ((reads_text _ name _).trans ((reads_letter _ '.' _).trans (reads_text _ domain stop.rest)))))
    rw [← same]
    exact mem_ends_seq.mpr ⟨_, mem_ends_boundary.mpr ⟨rfl, stopBoundary⟩, List.mem_singleton_self _⟩

theorem exists_word_start (isWord : Char -> Bool) (before : List Char) :
    ∃ outer run, before = outer ++ run ∧
      (∀ letter ∈ run, isWord letter = true) ∧ outer.getLast?.any isWord = false := by
  induction before using List.reverseRecOn with
  | nil => exact ⟨[], [], rfl, fun _ impossible => (List.not_mem_nil impossible).elim, rfl⟩
  | append_singleton before letter ih =>
    cases word : isWord letter with
    | false =>
      refine ⟨before ++ [letter], [], (List.append_nil _).symm,
        fun _ impossible => (List.not_mem_nil impossible).elim, ?_⟩
      rw [List.getLast?_concat, Option.any_some, word]
    | true =>
      rcases ih with ⟨outer, run, split, every, outside⟩
      refine ⟨outer, run ++ [letter], ?_, ?_, outside⟩
      · rw [split, List.append_assoc]
      · intro other member
        rcases List.mem_append.mp member with earlier | last
        · exact every other earlier
        · rw [List.mem_singleton.mp last]
          exact word

variable {rest : List Char}

theorem begins_of_boundary {before user : List Char} (some : user ≠ [])
    (isLocal : ∀ letter ∈ user, classes.isLocal letter = true)
    (boundary : Place.atBoundary classes.isWord ⟨before.getLast?, user ++ rest⟩ = true) :
    ∃ outer first middle, before ++ user = outer ++ first :: middle ∧ classes.isWord first = true ∧
        ∀ letter ∈ middle, classes.isLocal letter = true := by
  cases user with
  | nil => exact (some rfl).elim
  | cons head rest =>
    cases word : classes.isWord head with
    | true =>
      exact ⟨before, head, rest, rfl, word,
        fun letter member => isLocal letter (List.mem_cons_of_mem head member)⟩
    | false =>
      unfold Place.atBoundary at boundary
      dsimp only [List.cons_append, List.head?_cons] at boundary
      rw [Option.any_some, word, Bool.bne_false] at boundary
      rcases List.eq_nil_or_concat' before with rfl | ⟨outer, first, rfl⟩
      · cases boundary
      · rw [List.getLast?_concat, Option.any_some] at boundary
        refine ⟨outer, first, head :: rest, ?_, boundary, isLocal⟩
        rw [List.append_assoc, List.singleton_append]

variable {previous : Option Char}

theorem finishes_of_boundary {domain : List Char}
    (some : domain ≠ []) (isDomain : ∀ letter ∈ domain, classes.isDomain letter = true)
    (behind : stop.previous = domain.getLast?.or previous)
    (boundary : stop.atBoundary classes.isWord = true) : ∃ inner last outer,
      domain ++ stop.rest = inner ++ last :: outer ∧ classes.isWord last = true ∧
        ∀ letter ∈ inner, classes.isDomain letter = true := by
  rcases List.eq_nil_or_concat' domain with rfl | ⟨inner, last, rfl⟩
  · exact (some rfl).elim
  · cases word : classes.isWord last with
    | true =>
      refine ⟨inner, last, stop.rest, ?_, word, fun letter member =>
        isDomain letter (List.mem_append_left _ member)⟩
      rw [List.append_assoc, List.singleton_append]
    | false =>
      unfold Place.atBoundary at boundary
      rw [behind, List.getLast?_concat, Option.some_or, Option.any_some, word,
        Bool.false_bne] at boundary
      cases rest : stop.rest with
      | nil =>
        rw [rest] at boundary
        cases boundary
      | cons next outer =>
        rw [rest, List.head?_cons, Option.any_some] at boundary
        exact ⟨inner ++ [last], next, outer, rfl, boundary, isDomain⟩

theorem hasAddress_of_ends {before : List Char}
    (member : stop ∈ ends classes.isWord classes.emailPattern ⟨before.getLast?, rest⟩) :
    HasAddress classes (before ++ rest) := by
  rcases mem_ends_email.mp member with ⟨user, name, domain, read, startBoundary, stopBoundary, reads⟩
  have behind : stop.previous =
      domain.getLast?.or ((user ++ '@' :: (name ++ ['.'])).getLast?.or before.getLast?) := by
    have whole : user ++ '@' :: (name ++ '.' :: domain) = (user ++ '@' :: (name ++ ['.'])) ++ domain := by
      simp only [List.append_assoc, List.cons_append, List.nil_append]
    rw [← Option.or_assoc, ← List.getLast?_append, ← whole]
    exact reads.2
  have split : rest = user ++ '@' :: (name ++ '.' :: (domain ++ stop.rest)) := by
    have split : rest = (user ++ '@' :: (name ++ '.' :: domain)) ++ stop.rest := reads.1
    simpa only [List.append_assoc, List.cons_append] using split
  rw [split] at startBoundary
  rcases begins_of_boundary read.some read.isLocal startBoundary with
    ⟨outer, first, middle, start, begins, isLocal⟩
  rcases finishes_of_boundary read.placed read.isDomain behind stopBoundary with
    ⟨inner, last, after, finish, finishes, isDomain⟩
  refine ⟨⟨first, middle, name, inner, last, begins, isLocal, read.named, read.isName, isDomain,
    finishes⟩, outer, after, ?_⟩
  rw [split, ← List.append_assoc, start, finish]
  unfold Address.text
  simp only [List.append_assoc, List.cons_append, List.nil_append]

variable {letter : Char}

theorem isLocal_of_word (word : classes.isWord letter = true) : classes.isLocal letter = true := by
  unfold CharClasses.isLocal
  rw [word, Bool.true_or]

theorem isDomain_of_word (word : classes.isWord letter = true) :
    classes.isDomain letter = true := by
  unfold CharClasses.isDomain
  rw [word, Bool.true_or]

theorem Address.read {run tail : List Char} (before : ∀ letter ∈ run, classes.isWord letter = true)
    (behind : ∀ letter ∈ tail, classes.isWord letter = true) :
    AddressRead classes (run ++ address.first :: address.middle) address.name
      (address.domain ++ address.last :: tail) where
  some := List.append_ne_nil_of_right_ne_nil run (List.cons_ne_nil _ _)
  isLocal := by
    intro letter member
    rcases List.mem_append.mp member with inRun | later
    · exact isLocal_of_word (before letter inRun)
    · rcases List.mem_cons.mp later with same | inMiddle
      · rw [same]
        exact isLocal_of_word address.begins
      · exact address.isLocal letter inMiddle
  named := address.named
  isName := address.isName
  placed := List.append_ne_nil_of_right_ne_nil _ (List.cons_ne_nil _ _)
  isDomain := by
    intro letter member
    rcases List.mem_append.mp member with inDomain | later
    · exact address.isDomain letter inDomain
    · rcases List.mem_cons.mp later with same | inTail
      · rw [same]
        exact isDomain_of_word address.finishes
      · exact isDomain_of_word (behind letter inTail)

theorem boundary_before {isWord : Char -> Bool} {run : List Char}
    {first : Char} (outside : previous.any isWord = false)
    (every : ∀ letter ∈ run, isWord letter = true) (word : isWord first = true) :
    Place.atBoundary isWord ⟨previous, run ++ first :: rest⟩ = true := by
  unfold Place.atBoundary
  rw [outside, Bool.false_bne]
  cases run with
  | nil => exact word
  | cons letter run => exact every letter List.mem_cons_self

theorem boundary_behind {isWord : Char -> Bool} {last : Char}
    {text : List Char} (word : isWord last = true) : Place.atBoundary isWord
      ⟨(last :: text.takeWhile isWord).getLast?.or previous, text.dropWhile isWord⟩ = true := by
  have inside : ((last :: text.takeWhile isWord).getLast?.or previous).any isWord = true := by
    rw [List.getLast?_eq_some_getLast (List.cons_ne_nil _ _), Option.some_or, Option.any_some]
    rcases List.mem_cons.mp (List.getLast_mem (List.cons_ne_nil last (text.takeWhile isWord))) with
      same | member
    · rw [same]
      exact word
    · exact List.mem_takeWhile_imp member
  have outside : (text.dropWhile isWord).head?.any isWord = false := by
    have first := List.head?_dropWhile_not isWord text
    cases head : (text.dropWhile isWord).head? with
    | none => rfl
    | some letter =>
      rw [head] at first
      exact first
  unfold Place.atBoundary
  rw [inside, outside]
  rfl

/-- Where an address is, there is a match, unless the text starts within a word. -/
theorem HasAddress.matched {text more : List Char} (here : HasAddress classes text)
    (standing : previous = none ∨ Place.atBoundary classes.isWord ⟨previous, text ++ more⟩ = true) :
    Not (Unmatched classes.isWord classes.emailPattern previous text more) := by
  intro unmatched
  rcases here with ⟨address, before, after, split⟩
  rcases exists_word_start classes.isWord before with ⟨outer, run, parts, every, outside⟩
  have whole : text = outer ++ (run ++ address.text ++ after) := by
    rw [← split, parts]
    simp only [List.append_assoc]
  have nonempty : run ++ address.text ++ after ≠ [] := by
    refine List.append_ne_nil_of_left_ne_nil ?_ after
    exact List.append_ne_nil_of_right_ne_nil run (List.cons_ne_nil _ _)
  have missing := unmatched outer (run ++ address.text ++ after) whole nonempty
  have start : Place.atBoundary classes.isWord
      ⟨outer.getLast?.or previous, run ++ address.text ++ after ++ more⟩ = true := by
    rcases List.eq_nil_or_concat' outer with rfl | ⟨init, letter, rfl⟩
    · rcases standing with rfl | boundary
      · rw [List.append_assoc, List.append_assoc]
        exact boundary_before rfl every address.begins
      · rw [whole] at boundary
        exact boundary
    · rw [List.append_assoc, List.append_assoc]
      refine boundary_before ?_ every address.begins
      rw [List.getLast?_concat, Option.some_or, ← List.getLast?_concat]
      exact outside
  have read : run ++ address.text ++ after ++ more =
      ((run ++ address.first :: address.middle) ++ '@' :: (address.name ++ '.' ::
        (address.domain ++ address.last :: (after ++ more).takeWhile classes.isWord))) ++
        (after ++ more).dropWhile classes.isWord := by
    unfold Address.text
    simp only [List.append_assoc, List.cons_append, List.nil_append, List.takeWhile_append_dropWhile]
  have last : (run ++ address.first :: address.middle) ++ '@' :: (address.name ++ '.' ::
        (address.domain ++ address.last :: (after ++ more).takeWhile classes.isWord)) =
      ((run ++ address.first :: address.middle) ++ '@' :: (address.name ++ '.' :: address.domain)) ++
        address.last :: (after ++ more).takeWhile classes.isWord := by
    simp only [List.append_assoc, List.cons_append]
  rw [read] at start missing
  have member := mem_ends_email.mpr ⟨_, _, _, address.read every fun _ => List.mem_takeWhile_imp,
    start, ?_, reads_text _ _ _⟩
  · rw [missing] at member
    cases member
  · rw [last, List.getLast?_append, Option.or_assoc]
    exact boundary_behind address.finishes

theorem search_email_iff (text : List Char) :
    Regex.search classes.isWord classes.emailPattern text = true <-> HasAddress classes text := by
  unfold Regex.search
  constructor
  · intro some
    rcases Option.isSome_iff_exists.mp some with ⟨first, found⟩
    have here := find_some found
    have ends := here.ends
    rw [Option.or_none] at ends
    rw [here.split]
    exact hasAddress_of_ends ends
  · intro here
    cases found : find classes.isWord classes.emailPattern none text with
    | some first => rfl
    | none => exact (here.matched (.inl rfl) (find_none found)).elim

theorem gaps_email (text : List Char) :
    (∀ piece ∈ (pieces classes.isWord classes.emailPattern text).1,
      Not (HasAddress classes piece.1)) ∧
      Not (HasAddress classes (pieces classes.isWord classes.emailPattern text).2) := by
  refine @scan_gaps classes.isWord classes.emailPattern ?_
    (fun place => place.previous = none ∨ place.atBoundary classes.isWord = true) ?_
    (fun gap => Not (HasAddress classes gap)) ?_ (text.length + 1) ⟨none, text⟩
    (Nat.lt_succ_self text.length) (.inl rfl)
  · intro place stop member same
    rcases mem_ends_email.mp member with ⟨user, name, domain, _, _, _, reads⟩
    have lengths := congrArg List.length reads.1
    rw [same, List.length_append, List.length_append, List.length_cons] at lengths
    omega
  · intro place stop member
    rcases mem_ends_email.mp member with ⟨_, _, _, _, _, boundary, _⟩
    exact .inr boundary
  · intro place gap more standing rest unmatched here
    refine here.matched ?_ unmatched
    rw [← rest]
    exact standing

def tokenKinds : List String := ["EMAIL", "PHONE", "USER", "INTERNAL_URL", "P4_PATH", "CLIENT"]

def tokenName (kind : String) (count : Nat) : List Char :=
  kind.toList ++ '_' :: (toString count).toList

/-- No token has the word in it or a part of it at one of its ends. -/
structure Unspelt (word : List Char) : Prop where
  noOpening : '<' ∉ word
  noClosing : '>' ∉ word
  unnamed : ∀ kind ∈ tokenKinds, ∀ count, Not (word <:+: tokenName kind count)

theorem next_token (masking : Masking) (kind : String) (original : List Char) :
    ∃ count, (masking.next kind original).1 = '<' :: (tokenName kind count ++ ['>']) := by
  refine ⟨(masking.counters.lookup kind).getD 0 + 1, ?_⟩
  unfold Masking.next tokenName
  simp only [String.toList_append, List.append_assoc]
  rfl

theorem Unspelt.apart {word : List Char} (unspelt : Unspelt word) {kind : String}
    (known : kind ∈ tokenKinds) (masking : Masking) (original : List Char) :
    Apart word (masking.next kind original).1 := by
  rcases next_token masking kind original with ⟨count, token⟩
  rw [token]
  exact apart_of_brackets unspelt.noOpening unspelt.noClosing (unspelt.unnamed kind known count)

theorem Address.bracket_not_mem {sign : Char}
    (bracket : sign = '<' ∨ sign = '>') : sign ∉ address.text := by
  have noWord : classes.isWord sign = false := by
    rcases bracket with rfl | rfl <;> exact classes.plain _ (by decide)
  have noSign : ∀ signs ∈ [".+-", "-", ".-"], isOneOf signs sign = false := by
    rcases bracket with rfl | rfl <;> decide
  have clear : ∀ signs ∈ [".+-", "-", ".-"], ∀ text : List Char,
      (∀ letter ∈ text, (classes.isWord letter || isOneOf signs letter) = true) ->
        sign ∉ text := by
    intro signs known text every member
    have allowed := every sign member
    rw [noWord, noSign signs known] at allowed
    cases allowed
  have noLetter : ∀ letter, classes.isWord letter = true -> sign ≠ letter := by
    intro letter word same
    rw [← same, noWord] at word
    cases word
  intro member
  unfold Address.text at member
  rcases List.mem_cons.mp member with isFirst | member
  · exact noLetter _ address.begins isFirst
  rcases List.mem_append.mp member with inMiddle | member
  · exact clear ".+-" (by decide) _ address.isLocal inMiddle
  rcases List.mem_cons.mp member with isSign | member
  · rcases bracket with rfl | rfl <;> cases isSign
  rcases List.mem_append.mp member with inName | member
  · exact clear "-" (by decide) _ address.isName inName
  rcases List.mem_cons.mp member with isDot | member
  · rcases bracket with rfl | rfl <;> cases isDot
  rcases List.mem_append.mp member with inDomain | isLast
  · exact clear ".-" (by decide) _ address.isDomain inDomain
  · exact noLetter _ address.finishes (List.mem_singleton.mp isLast)

theorem Address.sign_mem : '@' ∈ address.text :=
  List.mem_cons_of_mem _ (List.mem_append_right _ List.mem_cons_self)

theorem sign_not_mem_tokenName {kind : String} (known : kind ∈ tokenKinds) (count : Nat) :
    '@' ∉ tokenName kind count := by
  intro member
  unfold tokenName at member
  rcases List.mem_append.mp member with inKind | member
  · have noSign : ∀ kind ∈ tokenKinds, '@' ∉ kind.toList := by decide
    exact noSign kind known inKind
  · rcases List.mem_cons.mp member with isSign | inCount
    · cases isSign
    · have digits : (toString count).toList = Nat.toDigits 10 count := Nat.toList_repr
      rw [digits] at inCount
      have isDigit := Nat.isDigit_of_mem_toDigits (by decide) (by decide) inCount
      cases isDigit

theorem Address.unspelt : Unspelt address.text where
  noOpening := address.bracket_not_mem (.inl rfl)
  noClosing := address.bracket_not_mem (.inr rfl)
  unnamed := by
    intro kind known count inside
    exact sign_not_mem_tokenName known count (inside.subset address.sign_mem)

/-! ## Terms of the vocabulary -/

theorem contains_iff (text term : List Char) : contains text term = true <-> term <:+: text := by
  unfold contains
  rw [List.any_eq_true]
  constructor
  · rintro ⟨tail, member, atStart⟩
    exact (List.isPrefixOf_iff_prefix.mp atStart).isInfix.trans ((List.mem_tails _ _).mp member).isInfix
  · intro inside
    rcases List.infix_iff_prefix_suffix.mp inside with ⟨tail, atStart, atEnd⟩
    exact ⟨tail, (List.mem_tails _ _).mpr atEnd, List.isPrefixOf_iff_prefix.mpr atStart⟩

theorem replaceFrom_skip (term token skipped rest : List Char) :
    replaceFrom term token skipped.length (skipped ++ rest) = replaceFrom term token 0 rest := by
  induction skipped with
  | nil => rfl
  | cons letter skipped ih => exact ih

variable {term : List Char}

theorem replaceAll_hit (named : term ≠ []) (token rest : List Char) :
    replaceAll term token (term ++ rest) = token ++ replaceAll term token rest := by
  cases term with
  | nil => exact (named rfl).elim
  | cons letter term =>
    have atStart : (letter :: term).isPrefixOf (letter :: (term ++ rest)) = true :=
      List.isPrefixOf_iff_prefix.mpr (List.prefix_append (letter :: term) rest)
    unfold replaceAll
    rw [List.cons_append, replaceFrom, if_pos atStart, List.length_cons, Nat.add_sub_cancel,
      replaceFrom_skip]

theorem replaceAll_miss (missing : Not (term <+: letter :: rest)) (token : List Char) :
    replaceAll term token (letter :: rest) = letter :: replaceAll term token rest := by
  have notAtStart : Not (term.isPrefixOf (letter :: rest) = true) := fun atStart =>
    missing (List.isPrefixOf_iff_prefix.mp atStart)
  unfold replaceAll
  rw [replaceFrom, if_neg notAtStart]

theorem replaceAll_induction (named : term ≠ []) {motive : List Char -> Prop}
    (nil : motive []) (hit : ∀ rest, motive rest -> motive (term ++ rest))
    (miss : ∀ letter rest, Not (term <+: letter :: rest) -> motive rest -> motive (letter :: rest))
    (text : List Char) : motive text := by
  have enough : ∀ count (text : List Char), text.length ≤ count -> motive text := by
    intro count
    induction count with
    | zero =>
      intro text short
      rw [List.length_eq_zero_iff.mp (Nat.le_zero.mp short)]
      exact nil
    | succ count ih =>
      intro text short
      cases text with
      | nil => exact nil
      | cons letter rest =>
        by_cases atStart : term <+: letter :: rest
        · rcases atStart with ⟨later, split⟩
          rw [← split] at short ⊢
          have positive := List.length_pos_of_ne_nil named
          rw [List.length_append] at short
          exact hit later (ih later (by omega))
        · exact miss letter rest atStart
            (ih rest (Nat.le_of_succ_le_succ short))
  exact enough text.length text (Nat.le_refl _)

theorem replaceAll_keeps {word token : List Char} (named : term ≠ []) (apart : Apart word token)
    (text before : List Char) (inside : word <:+: before ++ replaceAll term token text) :
    word <:+: before ++ text := by
  induction text using replaceAll_induction named generalizing before with
  | nil => exact inside
  | hit rest ih =>
    rw [replaceAll_hit named] at inside
    rcases apart _ _ inside with left | right
    · exact left.trans (List.prefix_append before _).isInfix
    · have later := ih [] right
      exact later.trans ((List.suffix_append term rest).trans (List.suffix_append before _)).isInfix
  | miss letter rest missing ih =>
    rw [replaceAll_miss missing] at inside
    have later := ih (before ++ [letter])
    rw [List.append_assoc, List.append_assoc] at later
    exact later inside

theorem replaceAll_free {token : List Char} (named : term ≠ []) (apart : Apart term token)
    (text gap : List Char)
    (clear : ∀ before after, gap = before ++ after -> after ≠ [] -> Not (term <+: after ++ text)) :
    Not (term <:+: gap ++ replaceAll term token text) := by
  have noneIn : ∀ gap text : List Char,
      (∀ before after, gap = before ++ after -> after ≠ [] -> Not (term <+: after ++ text)) ->
        Not (term <:+: gap) := by
    rintro gap text clear ⟨before, after, split⟩
    rw [List.append_assoc] at split
    refine clear before (term ++ after) split.symm (List.append_ne_nil_of_left_ne_nil named after) ?_
    rw [List.append_assoc]
    exact List.prefix_append term _
  induction text using replaceAll_induction named generalizing gap with
  | nil =>
    intro inside
    have whole : term <:+: gap ++ [] := inside
    rw [List.append_nil] at whole
    exact noneIn gap [] clear whole
  | hit rest ih =>
    intro inside
    rw [replaceAll_hit named] at inside
    rcases apart _ _ inside with left | right
    · exact noneIn gap _ clear left
    · refine ih [] ?_ right
      intro before after split nonempty
      exact (nonempty (List.append_eq_nil_iff.mp split.symm).2).elim
  | miss letter rest missing ih =>
    intro inside
    rw [replaceAll_miss missing] at inside
    refine ih (gap ++ [letter]) ?_ ?_
    · intro before after split nonempty atStart
      rcases List.eq_nil_or_concat' after with rfl | ⟨init, last, rfl⟩
      · exact nonempty rfl
      · rw [← List.append_assoc] at split
        have parts := List.append_inj' split rfl
        cases parts.2
        rw [List.append_assoc] at atStart
        cases init with
        | nil => exact missing atStart
        | cons head init => exact clear before (head :: init) parts.1 (List.cons_ne_nil _ _) atStart
    · rw [List.append_assoc]
      exact inside

/-! ## The masked text -/

namespace Redactor

variable {redactor : Redactor} {word : List Char}

variable {text : List Char × Masking}

theorem substitute_keeps {pattern : Pattern} {replace : Masking -> List Char -> List Char × Masking}
    (tokens : ∀ masking found,
      Apart word (replace masking found).1 ∨ (replace masking found).1 = found)
    (inside : word <:+: (redactor.substitute pattern replace text).1) : word <:+: text.1 := by
  have before := Regex.substitute_keeps tokens _ _ _ [] inside
  rw [List.nil_append, pieces_joined] at before
  exact before

theorem subRegex_keeps (unspelt : Unspelt word) {pattern : Pattern} {kind : String}
    (known : kind ∈ tokenKinds)
    (inside : word <:+: (redactor.subRegex pattern kind text).1) : word <:+: text.1 :=
  substitute_keeps (fun masking found => .inl (unspelt.apart known masking found)) inside

theorem subUrl_keeps (unspelt : Unspelt word)
    (inside : word <:+: (redactor.subUrl text).1) : word <:+: text.1 := by
  refine substitute_keeps ?_ inside
  intro masking url
  split
  · exact .inl (unspelt.apart (by decide) masking url)
  · exact .inr rfl

variable {term : List Char}

theorem subTerm_keeps (unspelt : Unspelt word)
    (named : term ≠ []) (inside : word <:+: (subTerm text term).1) : word <:+: text.1 := by
  unfold subTerm at inside
  split at inside
  case isTrue => exact replaceAll_keeps named (unspelt.apart (by decide) _ _) _ [] inside
  case isFalse => exact inside

theorem subTerm_free (named : term ≠ []) (unspelt : Unspelt term)
    (text : List Char × Masking) : Not (term <:+: (subTerm text term).1) := by
  unfold subTerm
  split
  case isTrue =>
    refine replaceAll_free named (unspelt.apart (by decide) _ _) _ [] ?_
    intro before after split nonempty
    exact (nonempty (List.append_eq_nil_iff.mp split.symm).2).elim
  case isFalse missing =>
    intro inside
    exact missing ((contains_iff _ _).mpr inside)

theorem foldl_subTerm_keeps (unspelt : Unspelt word) (terms : List (List Char))
    (named : ∀ term ∈ terms, term ≠ []) (text : List Char × Masking)
    (inside : word <:+: (terms.foldl subTerm text).1) : word <:+: text.1 := by
  induction terms generalizing text with
  | nil => exact inside
  | cons term terms ih =>
    have later := ih (fun other member => named other (List.mem_cons_of_mem _ member))
      (subTerm text term) inside
    exact subTerm_keeps unspelt (named term List.mem_cons_self) later

theorem subVocab_free (member : term ∈ redactor.vocab) (unspelt : Unspelt term)
    (text : List Char × Masking) : Not (term <:+: (redactor.subVocab text).1) := by
  rcases List.append_of_mem member with ⟨before, after, vocab⟩
  have named : ∀ other ∈ after, other ≠ [] := by
    intro other later
    refine redactor.named other ?_
    rw [vocab]
    exact List.mem_append_right before (List.mem_cons_of_mem term later)
  intro inside
  unfold subVocab at inside
  rw [vocab, List.foldl_append, List.foldl_cons] at inside
  exact subTerm_free (redactor.named term member) unspelt _
    (foldl_subTerm_keeps unspelt after named _ inside)

theorem redact_keeps (unspelt : Unspelt word) {text : List Char}
    (inside : word <:+: (redactor.redact text).1) :
    word <:+: (redactor.subRegex redactor.classes.emailPattern "EMAIL" (text, {})).1 := by
  have paths := foldl_subTerm_keeps unspelt redactor.vocab redactor.named _ inside
  have urls := subRegex_keeps unspelt (by decide) paths
  have users := subUrl_keeps unspelt urls
  have phones := subRegex_keeps unspelt (by decide) users
  exact subRegex_keeps unspelt (by decide) phones

theorem redact_noAddress (text : List Char) :
    Not (HasAddress redactor.classes (redactor.redact text).1) := by
  rintro ⟨address, inside⟩
  have left := redact_keeps address.unspelt inside
  have gaps := @gaps_email redactor.classes text
  refine substitute_free (fun masking found => address.unspelt.apart (by decide) masking found)
    ?_ _ ?_ _ left
  · intro inTail
    exact gaps.2 ⟨address, inTail⟩
  · intro piece member inGap
    exact gaps.1 piece member ⟨address, inGap⟩

theorem redact_noTerm (member : term ∈ redactor.vocab) (unspelt : Unspelt term)
    (text : List Char) : Not (term <:+: (redactor.redact text).1) :=
  subVocab_free member unspelt _

end Redactor

end Knowledge
end BreadMind
