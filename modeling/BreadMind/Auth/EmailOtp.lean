import BreadMind.Base.Values
import BreadMind.Execution.Machine
import Mathlib.Logic.Function.Basic

namespace BreadMind
namespace Auth

open Execution
open Function (update update_apply update_of_ne update_self)

/-!
# Sign-in codes

A code is issued for an e-mail address and a workspace and kept as a digest in
one row for the pair.  A verification reads the row, compares its guess with
the digest and then writes the outcome back: the reading and the writing are
two statements, between which other calls may run.

Issuing a code replaces the digest and clears the count of attempts.  The
digest function is left open.
-/

abbrev Instant := Nat

/-- An e-mail address and the slug of a workspace.  The column of the addresses is
`citext`: they are compared by their small letters. -/
abbrev OtpKey := String × String

def otpKey (lower : String -> String) (email : String) (workspaceSlug : Option String) : OtpKey :=
  (lower email, workspaceSlug.getD "")

inductive OtpError where
  | otpInvalid (reason : String)
  | otpExpired (reason : String)

abbrev VerifyId := Nat

inductive Verifying where
  | calling (email : String) (workspaceSlug : Option String) (code : String)
  /-- The guess was wrong and the attempt is not counted yet. -/
  | mismatched (key : OtpKey)
  /-- The guess was right and the row is not marked as used yet. -/
  | matched (key : OtpKey)
  | accepted (key : OtpKey)
  | refused (error : OtpError)
  /-- A statement failed, or the call was cancelled. -/
  | abandoned

variable (Digest : Type)

/-- `email_otp`. -/
structure OtpRow where
  codeHash : Digest
  expiresAt : Instant
  usedAt : Option Instant
  attempts : Nat

structure Otps where
  rows : OtpKey -> Option (OtpRow Digest) := fun _ => none
  calls : VerifyId -> Option Verifying := fun _ => none

inductive OtpInput where
  | request (email : String) (workspaceSlug : Option String) (ttlMin : Nat) (code : String)
      (clock : Instant)
  | verify (id : VerifyId) (email : String) (workspaceSlug : Option String) (code : String)
  | read (id : VerifyId) (clock : Instant)
  | write (id : VerifyId) (now : Instant)
  | abandon (id : VerifyId)

variable {Digest} (lower : String -> String) (hashCode : String -> String -> Digest) (maxAttempts : Int)

def issue (email code : String) (ttlMin : Nat) (clock : Instant) : OtpRow Digest where
  codeHash := hashCode code email
  expiresAt := clock + ttlMin * 60 * 1000000
  usedAt := none
  attempts := 0

/-- The part of `verify_otp` between its two statements. -/
def compareGuess [DecidableEq Digest] (row : Option (OtpRow Digest)) (email : String)
    (workspaceSlug : Option String) (code : String) (clock : Instant) : Verifying :=
  match row with
  | none => .refused (.otpInvalid "no otp issued")
  | some row =>
    if row.usedAt ≠ none then .refused (.otpInvalid "already used")
    else if maxAttempts ≤ row.attempts then .refused (.otpInvalid "max attempts exceeded")
    else if row.expiresAt < clock then .refused (.otpExpired "expired")
    else if hashCode code email ≠ row.codeHash then .mismatched (otpKey lower email workspaceSlug)
    else .matched (otpKey lower email workspaceSlug)

namespace Otps

def setRow (otps : Otps Digest) (key : OtpKey) (change : OtpRow Digest -> OtpRow Digest) :
    Otps Digest :=
  { otps with rows := update otps.rows key ((otps.rows key).map change) }

def goTo (otps : Otps Digest) (id : VerifyId) (call : Verifying) : Otps Digest :=
  { otps with calls := update otps.calls id (some call) }

def step [DecidableEq Digest] (otps : Otps Digest) : OtpInput -> Otps Digest
  | .request email workspaceSlug ttlMin code clock =>
    { otps with
      rows := update otps.rows (otpKey lower email workspaceSlug)
        (some (issue hashCode email code ttlMin clock)) }
  | .verify id email workspaceSlug code =>
    match otps.calls id with
    | none => otps.goTo id (.calling email workspaceSlug code)
    | some _ => otps
  | .read id clock =>
    match otps.calls id with
    | some (.calling email workspaceSlug code) =>
      otps.goTo id (compareGuess lower hashCode maxAttempts
        (otps.rows (otpKey lower email workspaceSlug)) email workspaceSlug code clock)
    | _ => otps
  | .write id now =>
    match otps.calls id with
    | some (.mismatched key) =>
      (otps.setRow key fun row => { row with attempts := row.attempts + 1 }).goTo id
        (.refused (.otpInvalid "code mismatch"))
    | some (.matched key) =>
      (otps.setRow key fun row => { row with usedAt := some now }).goTo id (.accepted key)
    | _ => otps
  | .abandon id =>
    match otps.calls id with
    | some (.calling _ _ _) => otps.goTo id .abandoned
    | some (.mismatched _) => otps.goTo id .abandoned
    | some (.matched _) => otps.goTo id .abandoned
    | _ => otps

end Otps

def otpMachine [DecidableEq Digest] : Machine (Otps Digest) OtpInput where
  initial := {}
  step := Otps.step lower hashCode maxAttempts

/-! ## The record of issues and guesses -/

/-- The codes of one pair are counted, and the guesses by the code which they
were compared with. -/
structure Guesses where
  issued : OtpKey -> Nat := fun _ => 0
  /-- The issue that the call was compared with. -/
  against : VerifyId -> Nat := fun _ => 0
  wrong : OtpKey -> Nat -> Nat := fun _ _ => 0
  /-- Of the wrong guesses, those which are not counted in the row yet. -/
  uncounted : OtpKey -> Nat -> Nat := fun _ _ => 0

def recount (counter : OtpKey -> Nat -> Nat) (key : OtpKey) (number : Nat) (change : Nat -> Nat) :
    OtpKey -> Nat -> Nat :=
  fun other at_ => if other = key ∧ at_ = number then change (counter other at_) else counter other at_

def noteGuess [DecidableEq Digest] (otps : Otps Digest) (input : OtpInput) (guesses : Guesses) : Guesses :=
  match input with
  | .request email workspaceSlug _ _ _ =>
    let key := otpKey lower email workspaceSlug
    { guesses with issued := update guesses.issued key (guesses.issued key + 1) }
  | .read id clock =>
    match otps.calls id with
    | some (.calling email workspaceSlug code) =>
      let key := otpKey lower email workspaceSlug
      let number := guesses.issued key
      let compared := { guesses with against := update guesses.against id number }
      match compareGuess lower hashCode maxAttempts (otps.rows key) email workspaceSlug code clock with
      | .mismatched _ =>
        { compared with
          wrong := recount guesses.wrong key number (· + 1)
          uncounted := recount guesses.uncounted key number (· + 1) }
      | _ => compared
    | _ => guesses
  | .write id _ =>
    match otps.calls id with
    | some (.mismatched key) =>
      { guesses with
        uncounted := recount guesses.uncounted key (guesses.against id) (· - 1) }
    | _ => guesses
  | _ => guesses

def notedOtps [DecidableEq Digest] : Machine (Otps Digest × Guesses) OtpInput :=
  (otpMachine lower hashCode maxAttempts).recording {} (noteGuess lower hashCode maxAttempts)

def Guessed (current : Otps Digest × Guesses) (key : OtpKey) (number : Nat) (id : VerifyId)
    (call : Verifying) : Prop :=
  current.1.calls id = some call ∧ current.2.against id = number ∧
    (call = .matched key ∨ call = .accepted key)

structure UsedSparingly (current : Otps Digest × Guesses) : Prop where
  once : ∀ key number first second,
    current.1.calls first = some (.accepted key) -> current.1.calls second = some (.accepted key) ->
      current.2.against first = number -> current.2.against second = number -> first = second
  few : ∀ key number, current.2.wrong key number ≤ maxAttempts.toNat

/-- No guess is compared against an outcome that is about to be written: a
right guess finds no other right guess of the code unwritten, and a wrong
guess finds the attempts below the bound together with those that are not
counted in the row. -/
def ReadsSettled [DecidableEq Digest] (current : Otps Digest × Guesses) : OtpInput -> Prop
  | .read id clock =>
    match current.1.calls id with
    | some (.calling email workspaceSlug code) =>
      match compareGuess lower hashCode maxAttempts (current.1.rows (otpKey lower email workspaceSlug)) email
        workspaceSlug code clock with
      | .matched key => ∀ other, current.1.calls other = some (.matched key) ->
          current.2.against other ≠ current.2.issued key
      | .mismatched key => ∀ row, current.1.rows key = some row ->
          row.attempts + current.2.uncounted key (current.2.issued key) < maxAttempts.toNat
      | _ => True
    | _ => True
  | _ => True

def CounterKept [DecidableEq Digest] (current : Otps Digest × Guesses) (input : OtpInput) : Prop :=
  (∀ email workspaceSlug ttlMin code clock,
    input ≠ .request email workspaceSlug ttlMin code clock) ->
    ∀ key row, current.1.rows key = some row ->
      ∃ later,
        ((notedOtps lower hashCode maxAttempts).step current input).1.rows key = some later ∧
          row.attempts ≤ later.attempts

/-! ## Every guess is accounted for -/

structure Accounted (current : Otps Digest × Guesses) : Prop where
  few : ∀ key number, current.2.wrong key number ≤ maxAttempts.toNat
  future : ∀ key number, current.2.issued key < number -> current.2.wrong key number = 0
  counted : ∀ key row, current.1.rows key = some row ->
    current.2.wrong key (current.2.issued key) ≤
      row.attempts + current.2.uncounted key (current.2.issued key)
  origin : ∀ key number id call, Guessed current key number id call ->
    number ≤ current.2.issued key
  once : ∀ key number first second firstCall secondCall,
    Guessed current key number first firstCall -> Guessed current key number second secondCall ->
      first = second
  used : ∀ key id row, current.1.calls id = some (.accepted key) ->
    current.2.against id = current.2.issued key -> current.1.rows key = some row ->
      row.usedAt ≠ none

theorem compareGuess_cases [DecidableEq Digest] (row : Option (OtpRow Digest)) (email : String)
    (workspaceSlug : Option String) (code : String) (clock : Instant) : (∃ error,
      compareGuess lower hashCode maxAttempts row email workspaceSlug code clock = .refused error) ∨
    ∃ held, row = some held ∧ held.usedAt = none ∧
      (compareGuess lower hashCode maxAttempts row email workspaceSlug code clock =
          .mismatched (otpKey lower email workspaceSlug) ∨
        compareGuess lower hashCode maxAttempts row email workspaceSlug code clock =
          .matched (otpKey lower email workspaceSlug)) := by
  unfold compareGuess
  cases row with
  | none => exact .inl ⟨_, rfl⟩
  | some row =>
    dsimp only
    split
    · exact .inl ⟨_, rfl⟩
    · rename_i unused
      split
      · exact .inl ⟨_, rfl⟩
      · split
        · exact .inl ⟨_, rfl⟩
        · refine .inr ⟨row, rfl, not_not.mp unused, ?_⟩
          split
          · exact .inl rfl
          · exact .inr rfl

variable {lower hashCode maxAttempts} {otps : Otps Digest} {guesses : Guesses}

theorem goTo_calls (id other : VerifyId) (call : Verifying) :
    (otps.goTo id call).calls other = if other = id then some call else otps.calls other :=
  update_apply _ _ _ _

theorem recount_apply (counter : OtpKey -> Nat -> Nat) (key other : OtpKey) (number at_ : Nat)
    (change : Nat -> Nat) : recount counter key number change other at_ =
      if other = key ∧ at_ = number then change (counter other at_) else counter other at_ :=
  rfl

theorem Accounted.goTo (holds : Accounted maxAttempts (otps, guesses)) {id : VerifyId}
    {next : Verifying} (against : VerifyId -> Nat)
    (same : ∀ other ≠ id, against other = guesses.against other)
    (unguessed : ∀ key, next ≠ .matched key ∧ next ≠ .accepted key) :
    Accounted maxAttempts (otps.goTo id next, { guesses with against }) := by
  have elsewhere : ∀ {key number other call},
      Guessed (otps.goTo id next, { guesses with against }) key number other call ->
        Guessed (otps, guesses) key number other call ∧ against other = guesses.against other := by
    rintro key number other call ⟨reached, from_, kind⟩
    rw [show Prod.fst _ = otps.goTo id next from rfl, goTo_calls] at reached
    by_cases here : other = id
    · rw [if_pos here] at reached
      rcases kind with kind | kind <;> subst kind
      · exact absurd (Option.some_inj.mp reached) (unguessed key).1
      · exact absurd (Option.some_inj.mp reached) (unguessed key).2
    · rw [if_neg here] at reached
      exact ⟨⟨reached, (same other here).symm.trans from_, kind⟩, same other here⟩
  constructor
  · exact holds.few
  · exact holds.future
  · exact holds.counted
  · intro key number other call guessed
    exact holds.origin key number other call (elsewhere guessed).1
  · intro key number first second firstCall secondCall firstGuess secondGuess
    exact holds.once key number first second firstCall secondCall (elsewhere firstGuess).1
      (elsewhere secondGuess).1
  · intro key other row accepted current held
    have before := (elsewhere ⟨accepted, rfl, .inr rfl⟩)
    exact holds.used key other row before.1.1 (before.2.symm.trans current) held

theorem Accounted.request (holds : Accounted maxAttempts (otps, guesses)) (key : OtpKey)
    (row : OtpRow Digest) :
    Accounted maxAttempts ({ otps with rows := update otps.rows key (some row) },
      { guesses with issued := update guesses.issued key (guesses.issued key + 1) }) := by
  have later : ∀ other, guesses.issued other ≤
      update guesses.issued key (guesses.issued key + 1) other := by
    intro other
    rw [update_apply]
    split
    · rename_i same
      rw [same]
      omega
    · exact Nat.le_refl _
  constructor
  · exact holds.few
  · intro other number after
    exact holds.future other number (Nat.lt_of_le_of_lt (later other) after)
  · intro other held found
    by_cases same : other = key
    · subst same
      change guesses.wrong other (update guesses.issued other _ other) ≤ _
      rw [update_self, holds.future other _ (Nat.lt_succ_self _)]
      exact Nat.zero_le _
    · change guesses.wrong other (update guesses.issued key _ other) ≤
        held.attempts + guesses.uncounted other (update guesses.issued key _ other)
      rw [update_of_ne same]
      exact holds.counted other held ((update_of_ne same _ _).symm.trans found)
  · intro other number id call guessed
    exact (holds.origin other number id call guessed).trans (later other)
  · intro other number first second firstCall secondCall firstGuess secondGuess
    exact holds.once other number first second firstCall secondCall firstGuess secondGuess
  · intro other id held accepted current found
    by_cases same : other = key
    · subst same
      have bound : guesses.against id ≤ guesses.issued other :=
        holds.origin other _ id _ ⟨accepted, rfl, .inr rfl⟩
      replace current : guesses.against id =
        update guesses.issued other (guesses.issued other + 1) other := current
      rw [update_self] at current
      omega
    · replace current : guesses.against id = update guesses.issued key _ other := current
      rw [update_of_ne same] at current
      exact holds.used other id held accepted current
        ((update_of_ne same _ _).symm.trans found)

variable {key : OtpKey} {row : OtpRow Digest}

theorem Accounted.matches (holds : Accounted maxAttempts (otps, guesses)) {id : VerifyId}
    (found : otps.rows key = some row) (unused : row.usedAt = none)
    (settled : ∀ other, otps.calls other = some (.matched key) ->
      guesses.against other ≠ guesses.issued key) :
    Accounted maxAttempts (otps.goTo id (.matched key),
      { guesses with against := update guesses.against id (guesses.issued key) }) := by
  have earlier : ∀ {place number other call},
      Guessed (otps.goTo id (.matched key),
        { guesses with against := update guesses.against id (guesses.issued key) })
        place number other call ->
        (other = id ∧ place = key ∧ number = guesses.issued key) ∨
          (other ≠ id ∧ Guessed (otps, guesses) place number other call) := by
    rintro place number other call ⟨reached, from_, kind⟩
    rw [show Prod.fst _ = otps.goTo id _ from rfl, goTo_calls] at reached
    by_cases here : other = id
    · refine .inl ⟨here, ?_, ?_⟩
      · rw [if_pos here] at reached
        rcases kind with kind | kind <;> subst kind <;> cases reached
        rfl
      · rw [← from_, here]
        exact update_self _ _ _
    · rw [if_neg here] at reached
      refine .inr ⟨here, reached, ?_, kind⟩
      rw [← from_]
      exact (update_of_ne here _ _).symm
  have unmet : ∀ {other call}, Guessed (otps, guesses) key (guesses.issued key) other call ->
      False := by
    rintro other call ⟨reached, from_, kind | kind⟩
    · exact settled other (kind ▸ reached) from_
    · exact holds.used key other row (kind ▸ reached) from_ found unused
  constructor
  · exact holds.few
  · exact holds.future
  · exact holds.counted
  · intro place number other call guessed
    rcases earlier guessed with ⟨_, here, current⟩ | ⟨_, before⟩
    · rw [current, here]
    · exact holds.origin place number other call before
  · intro place number first second firstCall secondCall firstGuess secondGuess
    rcases earlier firstGuess with ⟨firstId, firstKey, firstNumber⟩ | ⟨_, firstBefore⟩
    · rcases earlier secondGuess with ⟨secondId, _, _⟩ | ⟨_, secondBefore⟩
      · exact firstId.trans secondId.symm
      · rw [firstKey, firstNumber] at secondBefore
        exact False.elim (unmet secondBefore)
    · rcases earlier secondGuess with ⟨_, secondKey, secondNumber⟩ | ⟨_, secondBefore⟩
      · rw [secondKey, secondNumber] at firstBefore
        exact False.elim (unmet firstBefore)
      · exact holds.once place number first second firstCall secondCall firstBefore secondBefore
  · intro place other held accepted current present
    rcases earlier ⟨accepted, rfl, .inr rfl⟩ with ⟨here, _, _⟩ | ⟨apart, before⟩
    · rw [show Prod.fst _ = otps.goTo id _ from rfl, goTo_calls, if_pos here] at accepted
      cases accepted
    · refine holds.used place other held before.1 ?_ present
      exact before.2.1.trans current

theorem Accounted.recounted (holds : Accounted maxAttempts (otps, guesses))
    {wrong uncounted : OtpKey -> Nat -> Nat}
    (few : ∀ key number, wrong key number ≤ maxAttempts.toNat)
    (future : ∀ key number, guesses.issued key < number -> wrong key number = 0)
    (counted : ∀ key row, otps.rows key = some row ->
      wrong key (guesses.issued key) ≤ row.attempts + uncounted key (guesses.issued key)) :
    Accounted maxAttempts (otps, { guesses with wrong, uncounted }) where
  few := few
  future := future
  counted := counted
  origin := holds.origin
  once := holds.once
  used := holds.used

theorem Accounted.mismatches (holds : Accounted maxAttempts (otps, guesses)) (id : VerifyId)
    (found : otps.rows key = some row)
    (below : row.attempts + guesses.uncounted key (guesses.issued key) < maxAttempts.toNat) :
    Accounted maxAttempts (otps.goTo id (.mismatched key), { guesses with
        against := update guesses.against id (guesses.issued key)
        wrong := recount guesses.wrong key (guesses.issued key) (· + 1)
        uncounted := recount guesses.uncounted key (guesses.issued key) (· + 1) }) := by
  have gone := @Accounted.goTo _ _ _ _ holds id (.mismatched key)
    (update guesses.against id (guesses.issued key))
    (fun other apart => update_of_ne apart _ _) (fun _ => ⟨nofun, nofun⟩)
  have soFar := holds.counted key row found
  refine gone.recounted ?_ ?_ ?_
  · intro other number
    rw [recount_apply]
    split
    · rename_i here
      rw [here.1, here.2]
      exact Nat.lt_of_le_of_lt soFar below
    · exact holds.few other number
  · intro other number after
    rw [recount_apply, if_neg]
    · exact holds.future other number after
    · rintro ⟨same, current⟩
      rw [same, current] at after
      exact Nat.lt_irrefl _ after
  · intro other held present
    have before := holds.counted other held present
    change recount _ _ _ _ _ (guesses.issued other) ≤
      held.attempts + recount _ _ _ _ _ (guesses.issued other)
    rw [recount_apply, recount_apply]
    split
    · exact Nat.succ_le_succ before
    · exact before

theorem setRow_rows (key other : OtpKey) (change : OtpRow Digest -> OtpRow Digest) :
    (otps.setRow key change).rows other =
      if other = key then (otps.rows key).map change else otps.rows other :=
  update_apply _ _ _ _

theorem setRow_eq_some {other : OtpKey} {change : OtpRow Digest -> OtpRow Digest}
    (found : (otps.setRow key change).rows other = some row) : ∃ held, otps.rows other = some held ∧
      (other = key ∧ row = change held ∨ other ≠ key ∧ row = held) := by
  rw [setRow_rows] at found
  by_cases same : other = key
  · rw [if_pos same] at found
    rcases Option.map_eq_some_iff.mp found with ⟨held, present, changed⟩
    exact ⟨held, same ▸ present, .inl ⟨same, changed.symm⟩⟩
  · rw [if_neg same] at found
    exact ⟨row, found, .inr ⟨same, rfl⟩⟩

theorem Accounted.counts (holds : Accounted maxAttempts (otps, guesses)) (key : OtpKey) (number : Nat) :
    Accounted maxAttempts (otps.setRow key fun row => { row with attempts := row.attempts + 1 },
        { guesses with uncounted := recount guesses.uncounted key number (· - 1) }) where
  few := holds.few
  future := holds.future
  origin := holds.origin
  once := holds.once
  counted := by
    intro other row found
    rcases setRow_eq_some found with ⟨held, present, ⟨same, changed⟩ | ⟨apart, kept⟩⟩
    · have before := holds.counted other held present
      change guesses.wrong other (guesses.issued other) ≤
        held.attempts + guesses.uncounted other (guesses.issued other) at before
      change guesses.wrong other (guesses.issued other) ≤
        row.attempts + recount guesses.uncounted key number (· - 1) other (guesses.issued other)
      rw [recount_apply, changed]
      split <;> dsimp only <;> omega
    · change guesses.wrong other (guesses.issued other) ≤
        row.attempts + recount guesses.uncounted key number (· - 1) other (guesses.issued other)
      rw [recount_apply, if_neg (fun here => apart here.1), kept]
      exact holds.counted other held present
  used := by
    intro other id row accepted current found
    rcases setRow_eq_some found with ⟨held, present, ⟨same, changed⟩ | ⟨apart, kept⟩⟩
    · rw [changed]
      exact holds.used other id held accepted current present
    · exact kept ▸ holds.used other id held accepted current present

theorem Accounted.accepts (holds : Accounted maxAttempts (otps, guesses)) {id : VerifyId}
    {key : OtpKey} (matched : otps.calls id = some (.matched key)) (now : Instant) :
    Accounted maxAttempts
      ((otps.setRow key fun row => { row with usedAt := some now }).goTo id (.accepted key),
        guesses) := by
  have earlier : ∀ {place number other call},
      Guessed ((otps.setRow key fun row => { row with usedAt := some now }).goTo id (.accepted key),
        guesses) place number other call ->
        ∃ before, Guessed (otps, guesses) place number other before := by
    rintro place number other call ⟨reached, from_, kind⟩
    rw [show Prod.fst _ = Otps.goTo _ id _ from rfl, goTo_calls] at reached
    by_cases here : other = id
    · subst here
      rw [if_pos rfl] at reached
      refine ⟨.matched key, matched, from_, Or.inl ?_⟩
      rcases kind with kind | kind <;> subst kind <;> cases reached
      rfl
    · rw [if_neg here] at reached
      exact ⟨call, reached, from_, kind⟩
  constructor
  · exact holds.few
  · exact holds.future
  · intro other row found
    rcases setRow_eq_some found with ⟨held, present, ⟨_, changed⟩ | ⟨_, kept⟩⟩
    · rw [changed]
      exact holds.counted other held present
    · exact kept ▸ holds.counted other held present
  · intro place number other call guessed
    rcases earlier guessed with ⟨before, guessedBefore⟩
    exact holds.origin place number other before guessedBefore
  · intro place number first second firstCall secondCall firstGuess secondGuess
    rcases earlier firstGuess with ⟨_, firstBefore⟩
    rcases earlier secondGuess with ⟨_, secondBefore⟩
    exact holds.once place number first second _ _ firstBefore secondBefore
  · intro place other row accepted current found
    rcases setRow_eq_some found with ⟨held, present, ⟨_, changed⟩ | ⟨apart, kept⟩⟩
    · rw [changed]
      exact Option.some_ne_none now
    · rw [show Prod.fst _ = Otps.goTo _ id _ from rfl, goTo_calls] at accepted
      by_cases here : other = id
      · rw [if_pos here] at accepted
        cases accepted
        exact absurd rfl apart
      · rw [if_neg here] at accepted
        exact kept ▸ holds.used place other held accepted current present

theorem Accounted.usedSparingly {current : Otps Digest × Guesses}
    (holds : Accounted maxAttempts current) : UsedSparingly maxAttempts current where
  once := by
    intro key number first second firstAccepted secondAccepted firstNumber secondNumber
    exact holds.once key number first second _ _ ⟨firstAccepted, firstNumber, .inr rfl⟩
      ⟨secondAccepted, secondNumber, .inr rfl⟩
  few := holds.few

theorem setRow_attempts {other : OtpKey} {change : OtpRow Digest -> OtpRow Digest}
    (found : otps.rows other = some row) (kept : ∀ row, row.attempts ≤ (change row).attempts) :
    ∃ later, (otps.setRow key change).rows other = some later ∧ row.attempts ≤ later.attempts := by
  by_cases same : other = key
  · refine ⟨change row, ?_, kept row⟩
    rw [setRow_rows, if_pos same, ← same, found]
    rfl
  · refine ⟨row, ?_, Nat.le_refl _⟩
    rw [setRow_rows, if_neg same, found]

variable [DecidableEq Digest]

theorem Accounted.read (holds : Accounted maxAttempts (otps, guesses)) (id : VerifyId)
    (clock : Instant)
    (settled : ReadsSettled lower hashCode maxAttempts (otps, guesses) (.read id clock)) :
    Accounted maxAttempts (otps.step lower hashCode maxAttempts (.read id clock),
      noteGuess lower hashCode maxAttempts otps (.read id clock) guesses) := by
  unfold ReadsSettled at settled
  unfold Otps.step noteGuess
  dsimp only at settled ⊢
  cases reached : otps.calls id with
  | none => exact holds
  | some call =>
    cases call with
    | calling email workspaceSlug code =>
      rw [reached] at settled
      dsimp only at settled ⊢
      rcases compareGuess_cases lower hashCode maxAttempts (otps.rows (otpKey lower email workspaceSlug))
        email workspaceSlug code clock with ⟨error, refused⟩ | ⟨row, found, unused, wrong | right⟩
      · rw [refused]
        exact holds.goTo _ (fun other apart => update_of_ne apart _ _)
          (fun _ => ⟨nofun, nofun⟩)
      · rw [wrong] at settled ⊢
        exact holds.mismatches id found (settled row found)
      · rw [right] at settled ⊢
        exact holds.matches found unused settled
    | _ => exact holds

theorem Accounted.write (holds : Accounted maxAttempts (otps, guesses)) (id : VerifyId)
    (now : Instant) : Accounted maxAttempts (otps.step lower hashCode maxAttempts (.write id now),
      noteGuess lower hashCode maxAttempts otps (.write id now) guesses) := by
  unfold Otps.step noteGuess
  dsimp only
  cases reached : otps.calls id with
  | none => exact holds
  | some call =>
    cases call with
    | mismatched key =>
      exact (holds.counts key (guesses.against id)).goTo guesses.against (fun _ _ => rfl)
        (fun _ => ⟨nofun, nofun⟩)
    | matched key => exact holds.accepts reached now
    | _ => exact holds

theorem accounted_step (current : Otps Digest × Guesses) (input : OtpInput)
    (holds : Accounted maxAttempts current)
    (settled : ReadsSettled lower hashCode maxAttempts current input) :
    Accounted maxAttempts ((notedOtps lower hashCode maxAttempts).step current input) := by
  rcases current with ⟨otps, guesses⟩
  change Accounted maxAttempts (otps.step lower hashCode maxAttempts input,
    noteGuess lower hashCode maxAttempts otps input guesses)
  cases input with
  | request email workspaceSlug ttlMin code clock => exact holds.request _ _
  | verify id email workspaceSlug code =>
    unfold Otps.step noteGuess
    dsimp only
    cases otps.calls id with
    | none => exact holds.goTo guesses.against (fun _ _ => rfl) (fun _ => ⟨nofun, nofun⟩)
    | some call => exact holds
  | read id clock => exact holds.read id clock settled
  | write id now => exact holds.write id now
  | abandon id =>
    have abandoned : Accounted maxAttempts (otps.goTo id .abandoned, guesses) :=
      holds.goTo guesses.against (fun _ _ => rfl) (fun _ => ⟨nofun, nofun⟩)
    unfold Otps.step noteGuess
    dsimp only
    cases otps.calls id with
    | none => exact holds
    | some call => cases call <;> first | exact abandoned | exact holds

theorem accounted_initial : Accounted maxAttempts (notedOtps lower hashCode maxAttempts).initial where
  few := fun _ _ => Nat.zero_le _
  future := fun _ _ _ => rfl
  counted := nofun
  origin := by rintro key number id call ⟨impossible, _⟩; cases impossible
  once := by rintro key number first second firstCall secondCall ⟨impossible, _⟩; cases impossible
  used := nofun

theorem counterKept_step (current : Otps Digest × Guesses) (input : OtpInput) :
    CounterKept lower hashCode maxAttempts current input := by
  intro other key row found
  change ∃ later,
    (current.1.step lower hashCode maxAttempts input).rows key = some later ∧ row.attempts ≤ later.attempts
  have unchanged : ∃ later, current.1.rows key = some later ∧
      row.attempts ≤ later.attempts := ⟨row, found, Nat.le_refl _⟩
  cases input with
  | request email workspaceSlug ttlMin code clock =>
    exact absurd rfl (other email workspaceSlug ttlMin code clock)
  | write id now =>
    unfold Otps.step
    dsimp only
    cases current.1.calls id with
    | none => exact unchanged
    | some call =>
      cases call with
      | mismatched place => exact setRow_attempts found (fun row => Nat.le_succ row.attempts)
      | matched place => exact setRow_attempts found (fun _ => Nat.le_refl _)
      | _ => exact unchanged
  | _ =>
    unfold Otps.step
    dsimp only
    repeat' split
    all_goals exact unchanged

/-- While no guess is compared against an outcome that is about to be written, codes
are used sparingly; only a new code ever clears the counter. -/
theorem otp_used_sparingly_run (lower : String -> String) (hashCode : String -> String -> Digest)
    (maxAttempts : Int) (inputs : List OtpInput) :
    (notedOtps lower hashCode maxAttempts).EveryStep (CounterKept lower hashCode maxAttempts) inputs ∧
      ((notedOtps lower hashCode maxAttempts).EveryStep (ReadsSettled lower hashCode maxAttempts) inputs ->
        (notedOtps lower hashCode maxAttempts).EveryState (UsedSparingly maxAttempts) inputs) := by
  refine ⟨fun _ input _ _ => counterKept_step _ input, ?_⟩
  intro settled before rest split
  exact ((notedOtps lower hashCode maxAttempts).guarded_everyState (Accounted maxAttempts)
    (ReadsSettled lower hashCode maxAttempts) accounted_initial accounted_step inputs settled before rest
    split).usedSparingly

def lowered (email : String) : String :=
  if email = "Ann@example.org" then "ann@example.org" else email

/-- A code that is guessed wrong once, under another spelling of the address, and then right. -/
def guessedTwice : List OtpInput :=
  [.request "ann@example.org" none 10 "000417" 0,
    .verify 0 "Ann@example.org" none "000000", .read 0 1, .write 0 1,
    .verify 1 "ann@example.org" none "000417", .read 1 2, .write 1 2]

theorem accepted_after_wrong_guess :
    (notedOtps lowered (fun code email => (code, email)) 5).EveryState (UsedSparingly 5)
      guessedTwice := by
  refine (otp_used_sparingly_run lowered (fun code email => (code, email)) 5 guessedTwice).2 ?_
  rw [Machine.everyStep_iff_stepsFrom]
  refine ⟨trivial, trivial, ?_, trivial, trivial, ?_, trivial, trivial⟩
  · intro row found
    cases found
    decide
  · intro other found
    by_cases first : other = 0
    · subst first
      cases found
    · change update (fun _ : VerifyId => 0) 0 1 other ≠ 1
      rw [update_of_ne first]
      decide

/-- Two requests with the right code, the one read before the other is written. -/
def overlappingGuesses : List OtpInput :=
  [.request "ann@example.org" none 10 "000417" 0,
    .verify 0 "ann@example.org" none "000417", .verify 1 "ann@example.org" none "000417",
    .read 0 1, .read 1 1, .write 0 2, .write 1 2]

/-- Wrong guesses under two spellings, all of them read before the first one is counted. -/
def wrongGuesses (count : Nat) : List OtpInput :=
  .request "ann@example.org" none 10 "000417" 0 ::
    (List.range count).flatMap fun id =>
      [.verify id (if id < 3 then "ann@example.org" else "Ann@example.org") none "000000", .read id 1]

theorem accepted_twice :
    (¬ (notedOtps lowered (fun code email => (code, email)) 5).EveryState (UsedSparingly 5)
        overlappingGuesses) ∧
      ¬ (notedOtps lowered (fun code email => (code, email)) 5).EveryState (UsedSparingly 5)
        (wrongGuesses 6) := by
  constructor
  · intro every
    have last := every overlappingGuesses [] rfl
    have same := last.once (otpKey lowered "ann@example.org" none) 1 0 1 rfl rfl rfl rfl
    cases same
  · intro every
    have last := every (wrongGuesses 6) [] rfl
    have bound := last.few (otpKey lowered "ann@example.org" none) 1
    exact absurd bound (by decide)

end Auth
end BreadMind
