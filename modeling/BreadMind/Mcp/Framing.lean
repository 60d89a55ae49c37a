import Mathlib.Data.List.Basic
import Mathlib.Data.List.TakeWhile

namespace BreadMind
namespace Mcp

/-!
# Messages in a byte stream

A message is a header, which ends with an empty line and tells the length of
the body, and the body.  The reader takes whole lines of the header as they come
in, and then the body as one piece.  It may wait between any two of these, and
what it has taken is not put back when it gives up.

Bytes are written as the characters with their codes.
-/

/-- The first line of a buffer with its line feed, once that has come. -/
def splitLine : List Char -> Option (List Char × List Char)
  | [] => none
  | first :: rest =>
    if first = '\n' then some ([first], rest)
    else (splitLine rest).map fun found => (first :: found.1, found.2)

def endsHeader (header : List Char) : Bool := "\r\n\r\n".toList.isSuffixOf header

/-- The class `\s`, among the codes below 128. -/
def isSpace (letter : Char) : Bool :=
  decide (9 ≤ letter.val ∧ letter.val ≤ 13) || decide (28 ≤ letter.val ∧ letter.val ≤ 32)

/-- A match of `Content-Length:\s*(\d+)` at the start, in any case. -/
def lengthHere (text : List Char) : Option Nat :=
  let digits := ((text.drop 15).dropWhile isSpace).takeWhile Char.isDigit
  if (text.take 15).map Char.toLower = "content-length:".toList ∧ digits ≠ [] then
    some (Nat.ofDigitChars 10 digits 0)
  else none

/-- `_CONTENT_LENGTH_RE.search`. -/
def contentLength : List Char -> Option Nat
  | [] => none
  | first :: rest => (lengthHere (first :: rest)).orElse fun _ => contentLength rest

inductive Reading where
  | header (data : List Char)
  | body (length : Nat)

inductive Progress where
  | waiting
  | failed (rest : List Char)
  | goOn (reading : Reading) (rest : List Char)
  | message (body rest : List Char)

def maxMessageSize : Nat := 10 * 1024 * 1024

/-- The part of `_read_stdio` up to the next wait. -/
def Reading.advance (reading : Reading) (buffer : List Char) : Progress :=
  match reading with
  | .header data =>
    match splitLine buffer with
    | none => .waiting
    | some (line, rest) =>
      if endsHeader (data ++ line) then
        match contentLength (data ++ line) with
        | none => .failed rest
        | some length => if maxMessageSize < length then .failed rest else .goOn (.body length) rest
      else .goOn (.header (data ++ line)) rest
  | .body length =>
    if length ≤ buffer.length then .message (buffer.take length) (buffer.drop length)
    else .waiting

/-- `encode_message`, for a body that is already JSON. -/
def encodeMessage (body : List Char) : List Char :=
  "Content-Length: ".toList ++ Nat.toDigits 10 body.length ++ "\r\n\r\n".toList ++ body

/-! ## Well-formed messages -/

/-- The lines make up one header, and it announces the body. -/
structure WellFramed (lines : List (List Char)) (body : List Char) : Prop where
  whole : ∀ line ∈ lines, splitLine line = some (line, [])
  open_ : ∀ count < lines.length, endsHeader (lines.take count).flatten = false
  closed : endsHeader lines.flatten = true
  announced : contentLength lines.flatten = some body.length
  size : body.length ≤ maxMessageSize

instance (lines : List (List Char)) (body : List Char) : Decidable (WellFramed lines body) :=
  decidable_of_iff ((∀ line ∈ lines, splitLine line = some (line, [])) ∧
      (∀ count < lines.length, endsHeader (lines.take count).flatten = false) ∧
      endsHeader lines.flatten = true ∧ contentLength lines.flatten = some body.length ∧
      body.length ≤ maxMessageSize)
    ⟨fun ⟨whole, open_, closed, announced, size⟩ => ⟨whole, open_, closed, announced, size⟩,
      fun framed => ⟨framed.whole, framed.open_, framed.closed, framed.announced, framed.size⟩⟩

theorem splitLine_append {buffer line rest : List Char} (found : splitLine buffer = some (line, rest))
    (more : List Char) : splitLine (buffer ++ more) = some (line, rest ++ more) := by
  induction buffer generalizing line rest with
  | nil => cases found
  | cons first others ih =>
    rw [List.cons_append]
    unfold splitLine at found ⊢
    by_cases feed : first = '\n'
    · rw [if_pos feed] at found ⊢
      cases found
      rfl
    · rw [if_neg feed] at found ⊢
      rcases Option.map_eq_some_iff.mp found with ⟨inner, here, same⟩
      cases same
      rw [ih here]
      rfl

def Expects (body : List Char) : Reading -> List Char -> Prop
  | .header data, stream => ∃ read line rest,
    WellFramed (read ++ line :: rest) body ∧ data = read.flatten ∧
      stream = line ++ rest.flatten ++ body
  | .body length, stream => length = body.length ∧ stream = body

variable {body : List Char}

theorem expects_fresh {lines : List (List Char)} (framed : WellFramed lines body) :
    Expects body (.header []) (lines.flatten ++ body) := by
  cases lines with
  | nil => cases framed.announced
  | cons line rest => exact ⟨[], line, rest, framed, rfl, rfl⟩

theorem advance_expects {buffer coming : List Char} {reading : Reading}
    (expects : Expects body reading (buffer ++ coming)) : reading.advance buffer = .waiting ∨
      (∃ next rest, reading.advance buffer = .goOn next rest ∧ Expects body next (rest ++ coming)) ∨
      (reading.advance buffer = .message body [] ∧ coming = []) := by
  cases reading with
  | header data =>
    rcases expects with ⟨read, line, rest, framed, same, stream⟩
    unfold Reading.advance
    cases split : splitLine buffer with
    | none => exact .inl rfl
    | some found =>
      rcases found with ⟨first, left⟩
      have whole := framed.whole line (List.mem_append_right _ List.mem_cons_self)
      have one := splitLine_append split coming
      rw [stream, List.append_assoc, splitLine_append whole, List.nil_append] at one
      rcases Prod.mk.inj (Option.some.inj one) with ⟨sameLine, sameRest⟩
      refine .inr (Or.inl ?_)
      have header : data ++ first = (read ++ [line]).flatten := by
        rw [same, ← sameLine, List.flatten_append, List.flatten_singleton]
      cases rest with
      | nil =>
        have ends := framed.closed
        rw [← header] at ends
        have announced := framed.announced
        rw [← header] at announced
        refine ⟨.body body.length, left, ?_, rfl, sameRest.symm⟩
        simp only [ends, if_true, announced]
        exact if_neg (Nat.not_lt.mpr framed.size)
      | cons next later =>
        have goesOn : endsHeader (data ++ first) = false := by
          have before := framed.open_ (read.length + 1) (by
            rw [List.length_append, List.length_cons, List.length_cons]
            omega)
          rw [List.append_cons, List.take_left' (by rw [List.length_append]; rfl)] at before
          rw [header]
          exact before
        refine ⟨.header (data ++ first), left, ?_, read ++ [line], next, later, ?_, header, ?_⟩
        · simp only [goesOn, Bool.false_eq_true, if_false]
        · rw [← List.append_cons]
          exact framed
        · exact sameRest.symm
  | body length =>
    rcases expects with ⟨same, stream⟩
    unfold Reading.advance
    by_cases there : length ≤ buffer.length
    · have none_ : coming = [] := by
        refine List.eq_nil_of_length_eq_zero ?_
        have total := congrArg List.length stream
        rw [List.length_append] at total
        omega
      rw [none_, List.append_nil] at stream
      refine .inr (.inr ⟨?_, none_⟩)
      rw [stream] at there ⊢
      simp only [same, Nat.le_refl, if_true, List.take_length, List.drop_length]
    · exact .inl (if_neg there)

/-! ## What the encoder writes is well framed -/

/-- The two lines of the header which `encode_message` writes. -/
def headerLines (length : Nat) : List (List Char) :=
  ["Content-Length: ".toList ++ Nat.toDigits 10 length ++ ['\r', '\n'], ['\r', '\n']]

theorem encodeMessage_lines (body : List Char) :
    encodeMessage body = (headerLines body.length).flatten ++ body := by
  unfold encodeMessage headerLines
  rw [List.flatten_cons, List.flatten_singleton]
  simp only [List.append_assoc]
  rfl

theorem splitLine_line {text : List Char} (inside : ∀ letter ∈ text, letter ≠ '\n')
    (rest : List Char) : splitLine (text ++ '\n' :: rest) = some (text ++ ['\n'], rest) := by
  induction text with
  | nil => rfl
  | cons first others ih =>
    rw [List.cons_append]
    unfold splitLine
    rw [if_neg (inside first List.mem_cons_self),
      ih fun letter member => inside letter (List.mem_cons_of_mem _ member)]
    rfl

theorem isDigit_digit {length : Nat} {letter : Char} (member : letter ∈ Nat.toDigits 10 length) :
    letter.isDigit = true :=
  Nat.isDigit_of_mem_toDigits (by decide) (by decide) member

theorem digit_apart {length : Nat} {letter : Char} (member : letter ∈ Nat.toDigits 10 length) :
    letter ≠ '\n' ∧ isSpace letter = false := by
  have digit := isDigit_digit member
  unfold Char.isDigit at digit
  rw [Bool.and_eq_true, decide_eq_true_eq, decide_eq_true_eq] at digit
  have low : 48 ≤ letter.val.toNat := UInt32.le_iff_toNat_le.mp digit.1
  constructor
  · intro same
    rw [same] at low
    exact absurd low (by decide)
  · unfold isSpace
    rw [Bool.or_eq_false_iff]
    constructor
    · refine decide_eq_false ?_
      rintro ⟨_, high⟩
      have small : letter.val.toNat ≤ 13 := UInt32.le_iff_toNat_le.mp high
      omega
    · refine decide_eq_false ?_
      rintro ⟨_, high⟩
      have small : letter.val.toNat ≤ 32 := UInt32.le_iff_toNat_le.mp high
      omega

theorem contentLength_headerLines (length : Nat) :
    contentLength (headerLines length).flatten = some length := by
  have whole : (headerLines length).flatten =
      "Content-Length:".toList ++ ' ' :: (Nat.toDigits 10 length ++ "\r\n\r\n".toList) := by
    unfold headerLines
    rw [List.flatten_cons, List.flatten_singleton]
    simp only [List.append_assoc]
    rfl
  have digits : ((' ' :: (Nat.toDigits 10 length ++ "\r\n\r\n".toList)).dropWhile isSpace).takeWhile
      Char.isDigit = Nat.toDigits 10 length := by
    rw [List.dropWhile_cons_of_pos (by decide)]
    cases written : Nat.toDigits 10 length with
    | nil => exact absurd written Nat.toDigits_ne_nil
    | cons first others =>
      have member : ∀ letter ∈ first :: others, letter ∈ Nat.toDigits 10 length :=
        fun letter here => written ▸ here
      have notSpace := (digit_apart (member first List.mem_cons_self)).2
      rw [List.cons_append, List.dropWhile_cons_of_neg (by rw [notSpace]; exact Bool.false_ne_true),
        ← List.cons_append, List.takeWhile_append_of_pos]
      · exact List.append_nil _
      · exact fun letter here => isDigit_digit (member letter here)
  have here : lengthHere (headerLines length).flatten = some length := by
    unfold lengthHere
    rw [whole, List.take_left' (by decide), List.drop_left' (by decide), digits,
      if_pos ⟨by decide, Nat.toDigits_ne_nil⟩]
    exact congrArg some Nat.ofDigitChars_ten_toDigits
  rw [whole] at here ⊢
  change (lengthHere _).orElse _ = _
  exact congrArg (fun found => Option.orElse found _) here

theorem framed_encodeMessage (size : body.length ≤ maxMessageSize) :
    WellFramed (headerLines body.length) body := by
  have inside : ∀ letter ∈ "Content-Length: ".toList ++ Nat.toDigits 10 body.length ++
      ['\r'], letter ≠ '\n' := by
    intro letter member
    rcases List.mem_append.mp member with front | back
    · rcases List.mem_append.mp front with name | digit
      · have free : "Content-Length: ".toList.all (fun letter => !decide (letter = '\n')) = true := by
          decide
        have here := List.all_eq_true.mp free letter name
        exact of_decide_eq_false (Bool.not_eq_true' _ ▸ here)
      · exact (digit_apart digit).1
    · rw [List.mem_singleton.mp back]
      decide
  refine ⟨?_, ?_, ?_, contentLength_headerLines body.length, size⟩
  · intro line member
    rcases List.mem_cons.mp member with first | second
    · have whole := splitLine_line inside []
      rw [List.append_assoc] at whole
      rw [first]
      exact whole
    · rw [List.mem_singleton.mp second]
      decide
  · intro count few
    have two : count = 0 ∨ count = 1 := by
      change count < 2 at few
      omega
    rcases two with none | one
    · rw [none]
      rfl
    · rw [one]
      change endsHeader [_].flatten = false
      rw [List.flatten_singleton]
      refine Bool.eq_false_iff.mpr ?_
      intro ends
      -- Before the last line feed stands a digit, and no empty line.
      rcases List.isSuffixOf_iff_suffix.mp ends with ⟨front, same⟩
      rcases List.eq_nil_or_concat (Nat.toDigits 10 body.length) with nil | ⟨others, last, digits⟩
      · exact Nat.toDigits_ne_nil nil
      · have feed : last = '\n' := by
          rw [digits, List.concat_eq_append] at same
          change front ++ (['\r'] ++ (['\n'] ++ ['\r', '\n'])) = _ at same
          rw [← List.append_assoc, ← List.append_assoc] at same
          have shorter := (List.append_inj' same rfl).1
          rw [← List.append_assoc] at shorter
          exact (List.cons.inj (List.append_inj' shorter rfl).2).1.symm
        have digit : last ∈ Nat.toDigits 10 body.length := by
          rw [digits, List.concat_eq_append]
          exact List.mem_append_right _ (List.mem_singleton_self last)
        exact (digit_apart digit).1 feed
  · refine List.isSuffixOf_iff_suffix.mpr ?_
    refine ⟨"Content-Length: ".toList ++ Nat.toDigits 10 body.length, ?_⟩
    unfold headerLines
    rw [List.flatten_cons, List.flatten_singleton]
    simp only [List.append_assoc]
    rfl

/-- How far the reads of a stream that comes in pieces may get: where the reader stands, what is in
the buffer and what is still to come, and the bodies taken so far. -/
inductive Reads (stream : List Char) :
    Reading -> List Char -> List Char -> List (List Char) -> Prop where
  | start : Reads stream (.header []) [] stream []
  | arrive {reading : Reading} {buffer piece coming : List Char} {taken : List (List Char)} :
      Reads stream reading buffer (piece ++ coming) taken ->
        Reads stream reading (buffer ++ piece) coming taken
  | goOn {reading next : Reading} {buffer rest coming : List Char} {taken : List (List Char)} :
      Reads stream reading buffer coming taken -> reading.advance buffer = .goOn next rest ->
        Reads stream next rest coming taken
  | take {reading : Reading} {buffer body rest coming : List Char} {taken : List (List Char)} :
      Reads stream reading buffer coming taken -> reading.advance buffer = .message body rest ->
        Reads stream (.header []) rest coming (taken ++ [body])

/-- The bodies are taken in their order, no read fails, and none of them is missed. -/
def Recovers (bodies : List (List Char)) : Prop :=
  ∀ reading buffer coming taken, Reads (bodies.flatMap encodeMessage) reading buffer coming taken ->
    taken <+: bodies ∧ (∀ rest, reading.advance buffer ≠ .failed rest) ∧
      (coming = [] -> reading.advance buffer = .waiting -> taken = bodies)

def Progress.push (more : List Char) : Progress -> Progress
  | .waiting => .waiting
  | .failed rest => .failed (rest ++ more)
  | .goOn reading rest => .goOn reading (rest ++ more)
  | .message body rest => .message body (rest ++ more)

theorem advance_append {reading : Reading} {buffer : List Char}
    (moves : reading.advance buffer ≠ .waiting) (more : List Char) :
    reading.advance (buffer ++ more) = (reading.advance buffer).push more := by
  cases reading with
  | header data =>
    unfold Reading.advance at moves ⊢
    cases found : splitLine buffer with
    | none =>
      rw [found] at moves
      exact absurd rfl moves
    | some line =>
      rw [splitLine_append found]
      dsimp only
      split
      · split
        · rfl
        · split <;> rfl
      · rfl
  | body length =>
    unfold Reading.advance at moves ⊢
    dsimp only at moves ⊢
    split at moves
    case isTrue there =>
      rw [if_pos there, if_pos (by rw [List.length_append]; omega),
        List.take_append_of_le_length there, List.drop_append_of_le_length there]
      rfl
    case isFalse => exact absurd rfl moves

theorem advance_whole {reading : Reading} {own : List Char} (expects : Expects body reading own) :
    reading.advance own ≠ .waiting := by
  cases reading with
  | header data =>
    rcases expects with ⟨read, line, rest, framed, same, stream⟩
    have found := splitLine_append (framed.whole line (List.mem_append_right _ List.mem_cons_self))
      (rest.flatten ++ body)
    rw [stream, List.append_assoc]
    unfold Reading.advance
    rw [found]
    dsimp only
    split
    · split
      · nofun
      · split <;> nofun
    · nofun
  | body length =>
    rcases expects with ⟨rfl, rfl⟩
    simp [Reading.advance]

def Left (bodies taken : List (List Char)) (reading : Reading) (stream : List Char) : Prop :=
  (taken = bodies ∧ reading = .header [] ∧ stream = []) ∨
    ∃ body later own, bodies = taken ++ body :: later ∧ Expects body reading own ∧
      stream = own ++ later.flatMap encodeMessage

section

variable {bodies taken : List (List Char)} {reading : Reading} {buffer coming : List Char}

theorem left_fresh (sizes : ∀ body ∈ bodies, body.length ≤ maxMessageSize)
    {later : List (List Char)} (same : bodies = taken ++ later) :
    Left bodies taken (.header []) (later.flatMap encodeMessage) := by
  cases later with
  | nil => exact .inl ⟨(same.trans (List.append_nil _)).symm, rfl, rfl⟩
  | cons body later =>
    have size := sizes body (same ▸ List.mem_append_right _ List.mem_cons_self)
    refine .inr ⟨body, later, encodeMessage body, same, ?_, List.flatMap_cons⟩
    rw [encodeMessage_lines]
    exact expects_fresh (framed_encodeMessage size)

theorem left_advance (sizes : ∀ body ∈ bodies, body.length ≤ maxMessageSize)
    (left : Left bodies taken reading (buffer ++ coming)) :
    match reading.advance buffer with
    | .waiting => coming = [] -> taken = bodies
    | .failed _ => False
    | .goOn next rest => Left bodies taken next (rest ++ coming)
    | .message body rest => Left bodies (taken ++ [body]) (.header []) (rest ++ coming) := by
  rcases left with ⟨all, rfl, nothing⟩ | ⟨body, later, own, all, expects, stream⟩
  · rw [(List.append_eq_nil_iff.mp nothing).1]
    exact fun _ => all
  have further := left_fresh sizes (all.trans (List.append_cons _ _ _))
  rcases List.append_eq_append_iff.mp stream with ⟨missing, rfl, rfl⟩ | ⟨more, rfl, same⟩
  · rcases advance_expects expects with waits | ⟨next, rest, moves, expects⟩ | ⟨takes, rfl⟩
    · rw [waits]
      intro nothing
      rw [(List.append_eq_nil_iff.mp nothing).1, List.append_nil] at expects
      exact absurd waits (advance_whole expects)
    · rw [moves]
      exact .inr ⟨body, later, _, all, expects, (List.append_assoc _ _ _).symm⟩
    · rw [takes]
      exact further
  · have whole := advance_whole expects
    rw [advance_append whole]
    rw [← List.append_nil own] at expects
    rcases advance_expects expects with waits | ⟨next, rest, moves, expects⟩ | ⟨takes, _⟩
    · exact absurd waits whole
    · rw [moves]
      refine .inr ⟨body, later, _, all, expects, ?_⟩
      rw [same, List.append_nil, List.append_assoc]
    · rw [takes]
      rw [same] at further
      exact further

theorem left_reads (sizes : ∀ body ∈ bodies, body.length ≤ maxMessageSize)
    (reads : Reads (bodies.flatMap encodeMessage) reading buffer coming taken) :
    Left bodies taken reading (buffer ++ coming) := by
  induction reads with
  | start => exact left_fresh sizes rfl
  | arrive _ ih =>
    rw [List.append_assoc]
    exact ih
  | goOn _ moves ih =>
    have next := left_advance sizes ih
    rw [moves] at next
    exact next
  | take _ takes ih =>
    have next := left_advance sizes ih
    rw [takes] at next
    exact next

/-- Messages which are written one after the other are read back, however the stream comes in. -/
theorem encodeMessage_recovers (sizes : ∀ body ∈ bodies, body.length ≤ maxMessageSize) :
    Recovers bodies := by
  intro reading buffer coming taken reads
  have left := left_reads sizes reads
  have next := left_advance sizes left
  refine ⟨?_, fun rest fails => ?_, fun nothing waits => ?_⟩
  · rcases left with ⟨rfl, _⟩ | ⟨_, _, _, rfl, _⟩
    · exact List.prefix_rfl
    · exact List.prefix_append _ _
  · rw [fails] at next
    exact next
  · rw [waits] at next
    exact next nothing

end

theorem encodeMessage_recovers_two : Recovers ["{}".toList, "[1]".toList] :=
  encodeMessage_recovers (by decide)

end Mcp
end BreadMind
