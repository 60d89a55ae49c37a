import Mathlib.Data.List.Basic

namespace BreadMind
namespace Regex

/-!
# Regular expressions which backtrack

From a place in a text a pattern gives every place where a match from there may
end, the preferred one first, so that the match which a backtracking engine
finds is the first one.  A search takes the leftmost place from which there is
a match, and a scan goes on behind it.

Only patterns without empty matches are scanned.
-/

/-- A place in a text: the letter before it and what follows. -/
structure Place where
  previous : Option Char
  rest : List Char

inductive Pattern where
  | nothing
  | letter (accepts : Char -> Bool)
  | boundary
  | seq (first second : Pattern)
  | either (first second : Pattern)
  | repeated (least : Nat) (most : Option Nat) (body : Pattern)
  | atomic (body : Pattern)

namespace Pattern

def all : List Pattern -> Pattern
  | [] => .nothing
  | first :: rest => .seq first (all rest)

def literal (text : String) : Pattern :=
  all (text.toList.map fun expected => .letter (· == expected))

def oneOrMore (accepts : Char -> Bool) : Pattern :=
  .repeated 1 none (.letter accepts)

def atLeast (count : Nat) (accepts : Char -> Bool) : Pattern :=
  .repeated count none (.letter accepts)

def optional (accepts : Char -> Bool) : Pattern :=
  .repeated 0 (some 1) (.letter accepts)

end Pattern

/-- `\b`, with the letters of words as given. -/
def Place.atBoundary (isWord : Char -> Bool) (place : Place) : Bool :=
  place.previous.any isWord != place.rest.head?.any isWord

/-- At most so many steps, as many as possible first. -/
def atMost (step : Place -> List Place) : Nat -> Place -> List Place
  | 0, place => [place]
  | count + 1, place => (step place).flatMap (atMost step count) ++ [place]

def exactly (step : Place -> List Place) : Nat -> Place -> List Place
  | 0, place => [place]
  | count + 1, place => (step place).flatMap (exactly step count)

/-- Where a match from this place may end.  A repetition without a bound takes
at least one letter in each round. -/
def ends (isWord : Char -> Bool) : Pattern -> Place -> List Place
  | .nothing, place => [place]
  | .letter accepts, place =>
    match place.rest with
    | [] => []
    | found :: rest => if accepts found then [⟨some found, rest⟩] else []
  | .boundary, place => if place.atBoundary isWord then [place] else []
  | .seq first second, place => (ends isWord first place).flatMap fun next => ends isWord second next
  | .either first second, place => ends isWord first place ++ ends isWord second place
  | .repeated least most body, place =>
    (exactly (fun next => ends isWord body next) least place).flatMap
      (atMost (fun next => ends isWord body next) (most.getD place.rest.length - least))
  | .atomic body, place => (ends isWord body place).take 1

structure Match where
  gap : List Char
  found : List Char
  stop : Place

def find (isWord : Char -> Bool) (pattern : Pattern) : Option Char -> List Char -> Option Match
  | previous, [] =>
    match (ends isWord pattern ⟨previous, []⟩).head? with
    | some stop => some ⟨[], [], stop⟩
    | none => none
  | previous, letter :: rest =>
    match (ends isWord pattern ⟨previous, letter :: rest⟩).head? with
    | some stop =>
      some ⟨[], (letter :: rest).take ((letter :: rest).length - stop.rest.length), stop⟩
    | none => (find isWord pattern (some letter) rest).map fun later =>
      { later with gap := letter :: later.gap }

def search (isWord : Char -> Bool) (pattern : Pattern) (text : List Char) : Bool :=
  (find isWord pattern none text).isSome

/-- The matches one behind the other, each after its gap, and the text that is left. -/
def scan (isWord : Char -> Bool) (pattern : Pattern) :
    Nat -> Place -> List (List Char × List Char) × List Char
  | 0, place => ([], place.rest)
  | rounds + 1, place =>
    match find isWord pattern place.previous place.rest with
    | none => ([], place.rest)
    | some first =>
      if first.found.isEmpty then ([], place.rest)
      else
        let later := scan isWord pattern rounds first.stop
        ((first.gap, first.found) :: later.1, later.2)

/-- The matches of a text, as `re.finditer` has them. -/
def pieces (isWord : Char -> Bool) (pattern : Pattern) (text : List Char) :
    List (List Char × List Char) × List Char :=
  scan isWord pattern (text.length + 1) ⟨none, text⟩

def findAll (isWord : Char -> Bool) (pattern : Pattern) (text : List Char) : List (List Char) :=
  (pieces isWord pattern text).1.map Prod.snd

/-- `re.sub` with a function which keeps a state of its own. -/
def substitute {State : Type} (replace : State -> List Char -> List Char × State)
    (tail : List Char) : State -> List (List Char × List Char) -> List Char × State
  | state, [] => (tail, state)
  | state, (gap, found) :: rest =>
    let replaced := replace state found
    let later := substitute replace tail replaced.2 rest
    (gap ++ replaced.1 ++ later.1, later.2)

/-! ## What a match reads -/

/-- From the one place to the other this text is read. -/
def Reads (place : Place) (read : List Char) (stop : Place) : Prop :=
  place.rest = read ++ stop.rest ∧ stop.previous = read.getLast?.or place.previous

theorem reads_nil (place : Place) : Reads place [] place :=
  ⟨rfl, rfl⟩

variable {place stop : Place}

theorem Reads.trans {middle : Place} {first second : List Char}
    (one : Reads place first middle) (two : Reads middle second stop) :
    Reads place (first ++ second) stop := by
  refine ⟨?_, ?_⟩
  · rw [one.1, two.1, List.append_assoc]
  · rw [two.2, one.2, List.getLast?_append, Option.or_assoc]

theorem reads_letter (previous : Option Char) (letter : Char) (rest : List Char) :
    Reads ⟨previous, letter :: rest⟩ [letter] ⟨some letter, rest⟩ :=
  ⟨rfl, rfl⟩

theorem reads_text (previous : Option Char) (read rest : List Char) :
    Reads ⟨previous, read ++ rest⟩ read ⟨read.getLast?.or previous, rest⟩ :=
  ⟨rfl, rfl⟩

theorem Reads.eq {other : Place} {read : List Char} (one : Reads place read stop)
    (two : Reads place read other) : stop = other := by
  have rest := List.append_cancel_left (one.1.symm.trans two.1)
  have previous := one.2.trans two.2.symm
  cases stop
  cases other
  dsimp only at rest previous
  rw [rest, previous]

variable {isWord : Char -> Bool}

variable {accepts : Char -> Bool}

theorem mem_ends_letter : stop ∈ ends isWord (.letter accepts) place <->
      ∃ found, accepts found = true ∧ Reads place [found] stop := by
  rcases place with ⟨previous, rest⟩
  cases rest with
  | nil =>
    constructor
    · intro member
      cases member
    · rintro ⟨found, _, impossible, _⟩
      cases impossible
  | cons found rest =>
    constructor
    · intro member
      unfold ends at member
      dsimp only at member
      split at member
      case isTrue accepted =>
        cases List.mem_singleton.mp member
        exact ⟨found, accepted, reads_letter previous found rest⟩
      case isFalse => cases member
    · rintro ⟨other, accepted, reads⟩
      have same : other = found := (List.cons.inj reads.1).1.symm
      subst same
      unfold ends
      dsimp only
      rw [if_pos accepted]
      exact List.mem_singleton.mpr (reads.eq (reads_letter previous other rest))

theorem mem_ends_boundary :
    stop ∈ ends isWord .boundary place <-> stop = place ∧ place.atBoundary isWord = true := by
  unfold ends
  split
  case isTrue here => rw [List.mem_singleton, and_iff_left here]
  case isFalse away => exact iff_of_false List.not_mem_nil fun both => away both.2

theorem mem_ends_seq {first second : Pattern} : stop ∈ ends isWord (.seq first second) place <->
      ∃ middle ∈ ends isWord first place, stop ∈ ends isWord second middle := by
  have unfolded : ends isWord (.seq first second) place =
      (ends isWord first place).flatMap fun next => ends isWord second next := rfl
  rw [unfolded]
  exact List.mem_flatMap

def Forward (step : Place -> List Place) : Prop :=
  ∀ place stop, stop ∈ step place -> ∃ read, Reads place read stop

theorem forward_exactly {step : Place -> List Place} (forward : Forward step) (count : Nat) :
    Forward (exactly step count) := by
  induction count with
  | zero =>
    intro place stop member
    cases List.mem_singleton.mp member
    exact ⟨[], reads_nil place⟩
  | succ count ih =>
    intro place stop member
    rcases List.mem_flatMap.mp member with ⟨middle, first, rest⟩
    rcases forward place middle first with ⟨one, reads⟩
    rcases ih middle stop rest with ⟨others, later⟩
    exact ⟨one ++ others, reads.trans later⟩

theorem forward_atMost {step : Place -> List Place} (forward : Forward step) (count : Nat) :
    Forward (atMost step count) := by
  induction count with
  | zero =>
    intro place stop member
    cases List.mem_singleton.mp member
    exact ⟨[], reads_nil place⟩
  | succ count ih =>
    intro place stop member
    rcases List.mem_append.mp member with further | here
    · rcases List.mem_flatMap.mp further with ⟨middle, first, rest⟩
      rcases forward place middle first with ⟨one, reads⟩
      rcases ih middle stop rest with ⟨others, later⟩
      exact ⟨one ++ others, reads.trans later⟩
    · cases List.mem_singleton.mp here
      exact ⟨[], reads_nil place⟩

theorem forward_ends (pattern : Pattern) : Forward (ends isWord pattern) := by
  induction pattern with
  | nothing =>
    intro place stop member
    cases List.mem_singleton.mp member
    exact ⟨[], reads_nil place⟩
  | letter accepts =>
    intro place stop member
    rcases mem_ends_letter.mp member with ⟨found, _, reads⟩
    exact ⟨[found], reads⟩
  | boundary =>
    intro place stop member
    rcases mem_ends_boundary.mp member with ⟨rfl, _⟩
    exact ⟨[], reads_nil stop⟩
  | seq first second firstForward secondForward =>
    intro place stop member
    rcases mem_ends_seq.mp member with ⟨middle, one, two⟩
    rcases firstForward place middle one with ⟨read, reads⟩
    rcases secondForward middle stop two with ⟨others, later⟩
    exact ⟨read ++ others, reads.trans later⟩
  | either first second firstForward secondForward =>
    intro place stop member
    rcases List.mem_append.mp member with one | two
    · exact firstForward place stop one
    · exact secondForward place stop two
  | repeated least most body bodyForward =>
    intro place stop member
    rcases List.mem_flatMap.mp member with ⟨middle, one, two⟩
    rcases forward_exactly bodyForward least place middle one with ⟨read, reads⟩
    rcases forward_atMost bodyForward _ middle stop two with ⟨others, later⟩
    exact ⟨read ++ others, reads.trans later⟩
  | atomic body bodyForward =>
    intro place stop member
    exact bodyForward place stop (List.mem_of_mem_take member)

theorem mem_atMost_letter {count : Nat} :
    stop ∈ atMost (fun next => ends isWord (.letter accepts) next) count place <->
      ∃ read, read.length ≤ count ∧ (∀ letter ∈ read, accepts letter = true) ∧
        Reads place read stop := by
  induction count generalizing place with
  | zero =>
    constructor
    · intro member
      cases List.mem_singleton.mp member
      refine ⟨[], Nat.le_refl 0, ?_, reads_nil _⟩
      intro letter impossible
      cases impossible
    · rintro ⟨read, short, _, reads⟩
      rw [List.length_eq_zero_iff.mp (Nat.le_zero.mp short)] at reads
      exact List.mem_singleton.mpr (reads.eq (reads_nil place))
  | succ count ih =>
    constructor
    · intro member
      rcases List.mem_append.mp member with further | here
      · rcases List.mem_flatMap.mp further with ⟨middle, first, rest⟩
        rcases mem_ends_letter.mp first with ⟨found, accepted, one⟩
        rcases ih.mp rest with ⟨read, short, every, reads⟩
        refine ⟨found :: read, Nat.succ_le_succ short, ?_, one.trans reads⟩
        intro letter member
        rcases List.mem_cons.mp member with same | later
        · exact same ▸ accepted
        · exact every letter later
      · cases List.mem_singleton.mp here
        refine ⟨[], Nat.zero_le _, ?_, reads_nil _⟩
        intro letter impossible
        cases impossible
    · rintro ⟨read, short, every, reads⟩
      cases read with
      | nil => exact List.mem_append_right _ (List.mem_singleton.mpr (reads.eq (reads_nil place)))
      | cons found read =>
        have start : Reads place [found] ⟨some found, read ++ stop.rest⟩ := by
          rcases place with ⟨previous, rest⟩
          have same : rest = found :: (read ++ stop.rest) := reads.1
          subst same
          exact reads_letter previous found _
        refine List.mem_append_left _ (List.mem_flatMap.mpr ⟨_, mem_ends_letter.mpr
          ⟨found, every found List.mem_cons_self, start⟩, ih.mpr
          ⟨read, Nat.le_of_succ_le_succ short,
            fun letter later => every letter (List.mem_cons_of_mem _ later), ?_⟩⟩)
        have whole := start.trans (reads_text (some found) read stop.rest)
        have same := reads.eq whole
        rw [same]
        exact reads_text (some found) read stop.rest

theorem mem_ends_oneOrMore : stop ∈ ends isWord (.oneOrMore accepts) place <->
      ∃ read, read ≠ [] ∧ (∀ letter ∈ read, accepts letter = true) ∧ Reads place read stop := by
  have unfolded : ends isWord (.oneOrMore accepts) place =
      ((ends isWord (.letter accepts) place).flatMap fun next => [next]).flatMap
        (atMost (fun next => ends isWord (.letter accepts) next) (place.rest.length - 1)) := rfl
  rw [unfolded, List.flatMap_singleton', List.mem_flatMap]
  constructor
  · rintro ⟨middle, first, rest⟩
    rcases mem_ends_letter.mp first with ⟨found, accepted, one⟩
    rcases mem_atMost_letter.mp rest with ⟨read, _, every, reads⟩
    refine ⟨found :: read, List.cons_ne_nil found read, ?_, one.trans reads⟩
    intro letter member
    rcases List.mem_cons.mp member with same | later
    · exact same ▸ accepted
    · exact every letter later
  · rintro ⟨read, some, every, reads⟩
    cases read with
    | nil => exact (some rfl).elim
    | cons found read =>
      rcases place with ⟨previous, rest⟩
      have same : rest = found :: (read ++ stop.rest) := reads.1
      subst same
      refine ⟨⟨.some found, read ++ stop.rest⟩, mem_ends_letter.mpr
        ⟨found, every found List.mem_cons_self, reads_letter previous found _⟩,
        mem_atMost_letter.mpr ⟨read, ?_,
          fun letter later => every letter (List.mem_cons_of_mem _ later), ?_⟩⟩
      · rw [List.length_cons, List.length_append]
        omega
      · have whole := (reads_letter previous found (read ++ stop.rest)).trans
          (reads_text (.some found) read stop.rest)
        rw [reads.eq whole]
        exact reads_text (.some found) read stop.rest

/-- From no place inside this text, with more behind it, is there a match. -/
def Unmatched (isWord : Char -> Bool) (pattern : Pattern) (previous : Option Char)
    (text more : List Char) : Prop :=
  ∀ before after, text = before ++ after -> after ≠ [] ->
    ends isWord pattern ⟨before.getLast?.or previous, after ++ more⟩ = []

theorem last_cons (letter : Char) (text : List Char) (previous : Option Char) :
    (letter :: text).getLast?.or previous = text.getLast?.or (some letter) := by
  cases text with
  | nil => rfl
  | cons head tail =>
    rw [List.getLast?_cons_cons, List.getLast?_eq_some_getLast (List.cons_ne_nil head tail)]
    rfl

theorem unmatched_nil (pattern : Pattern) (previous : Option Char) (more : List Char) :
    Unmatched isWord pattern previous [] more := by
  intro before after split some
  exact (some (List.append_eq_nil_iff.mp split.symm).2).elim

theorem Unmatched.cons {pattern : Pattern} {previous : Option Char} {letter : Char}
    {text more : List Char} (first : ends isWord pattern ⟨previous, letter :: (text ++ more)⟩ = [])
    (later : Unmatched isWord pattern (some letter) text more) :
    Unmatched isWord pattern previous (letter :: text) more := by
  intro before after split nonempty
  cases before with
  | nil =>
    have same : after = letter :: text := split.symm
    subst same
    exact first
  | cons head before =>
    injection split with same rest
    subst same
    rw [last_cons]
    exact later before after rest nonempty

structure FoundAt (isWord : Char -> Bool) (pattern : Pattern) (previous : Option Char)
    (text : List Char) (first : Match) : Prop where
  split : text = first.gap ++ (first.found ++ first.stop.rest)
  ends : first.stop ∈ ends isWord pattern
    ⟨first.gap.getLast?.or previous, first.found ++ first.stop.rest⟩
  gap : Unmatched isWord pattern previous first.gap (first.found ++ first.stop.rest)

theorem find_spec (pattern : Pattern) (previous : Option Char) (text : List Char) :
    match find isWord pattern previous text with
    | none => ends isWord pattern ⟨previous, text⟩ = [] ∧ Unmatched isWord pattern previous text []
    | some first => FoundAt isWord pattern previous text first := by
  induction text generalizing previous with
  | nil =>
    unfold find
    cases head : (ends isWord pattern ⟨previous, []⟩).head? with
    | none => exact ⟨List.head?_eq_none_iff.mp head, unmatched_nil pattern previous []⟩
    | some stop =>
      have member := List.mem_of_head? head
      rcases forward_ends pattern _ stop member with ⟨read, reads⟩
      have both := List.append_eq_nil_iff.mp reads.1.symm
      refine ⟨?_, ?_, unmatched_nil pattern previous _⟩
      · dsimp only
        rw [both.2]
        rfl
      · dsimp only
        rw [both.2]
        exact member
  | cons letter rest ih =>
    unfold find
    cases head : (ends isWord pattern ⟨previous, letter :: rest⟩).head? with
    | none =>
      have nothing := List.head?_eq_none_iff.mp head
      have later := ih (some letter)
      cases found : find isWord pattern (some letter) rest with
      | none =>
        rw [found] at later
        refine ⟨nothing, Unmatched.cons ?_ later.2⟩
        rw [List.append_nil]
        exact nothing
      | some first =>
        rw [found] at later
        have split := later.split
        refine ⟨?_, ?_, ?_⟩
        · exact congrArg (letter :: ·) split
        · dsimp only
          rw [last_cons]
          exact later.ends
        · refine Unmatched.cons ?_ later.gap
          rw [← split]
          exact nothing
    | some stop =>
      have member := List.mem_of_head? head
      rcases forward_ends pattern _ stop member with ⟨read, reads⟩
      have same : letter :: rest = read ++ stop.rest := reads.1
      have found : (letter :: rest).take ((letter :: rest).length - stop.rest.length) = read := by
        rw [same, List.length_append, Nat.add_sub_cancel, List.take_left]
      refine ⟨?_, ?_, unmatched_nil pattern previous _⟩
      · dsimp only
        rw [found]
        exact same
      · dsimp only
        rw [found, ← same]
        exact member

variable {pattern : Pattern} {previous : Option Char} {text : List Char}

theorem find_some {first : Match} (found : find isWord pattern previous text = some first) :
    FoundAt isWord pattern previous text first := by
  have spec := @find_spec isWord pattern previous text
  rw [found] at spec
  exact spec

theorem find_none (missing : find isWord pattern previous text = none) :
    Unmatched isWord pattern previous text [] := by
  have spec := @find_spec isWord pattern previous text
  rw [missing] at spec
  exact spec.2

theorem find_found_ne_nil
    (long : ∀ place stop, stop ∈ ends isWord pattern place -> stop.rest ≠ place.rest)
    {first : Match}
    (found : find isWord pattern previous text = some first) : first.found ≠ [] := by
  intro empty
  have here := find_some found
  refine long _ _ here.ends ?_
  rw [empty]
  rfl

theorem scan_gaps {pattern : Pattern}
    (long : ∀ place stop, stop ∈ ends isWord pattern place -> stop.rest ≠ place.rest)
    {standing : Place -> Prop}
    (stands : ∀ place stop, stop ∈ ends isWord pattern place -> standing stop)
    {claim : List Char -> Prop} (gap : ∀ (place : Place) (text more : List Char), standing place ->
      place.rest = text ++ more -> Unmatched isWord pattern place.previous text more -> claim text)
    (rounds : Nat) (place : Place) (enough : place.rest.length < rounds) (start : standing place) :
    (∀ piece ∈ (scan isWord pattern rounds place).1, claim piece.1) ∧
      claim (scan isWord pattern rounds place).2 := by
  induction rounds generalizing place with
  | zero => exact absurd enough (Nat.not_lt_zero _)
  | succ rounds ih =>
    unfold scan
    cases found : find isWord pattern place.previous place.rest with
    | none =>
      refine ⟨?_, gap place place.rest [] start (List.append_nil _).symm (find_none found)⟩
      intro piece impossible
      cases impossible
    | some first =>
      have here := find_some found
      have some := find_found_ne_nil long found
      have shorter : first.stop.rest.length < rounds := by
        have lengths := congrArg List.length here.split
        have positive := List.length_pos_of_ne_nil some
        rw [List.length_append, List.length_append] at lengths
        omega
      dsimp only
      rw [if_neg (by rw [List.isEmpty_iff]; exact some)]
      have later := ih first.stop shorter (stands _ _ here.ends)
      refine ⟨?_, later.2⟩
      intro piece member
      rcases List.mem_cons.mp member with same | rest
      · rw [same]
        exact gap place first.gap _ start here.split here.gap
      · exact later.1 piece rest

end Regex
end BreadMind
