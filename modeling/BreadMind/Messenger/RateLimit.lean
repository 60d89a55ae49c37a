import BreadMind.Execution.Machine
import BreadMind.Execution.Windows
import Mathlib.Algebra.Order.Group.Nat
import Mathlib.Data.List.MinMax

namespace BreadMind
namespace Messenger
namespace RateLimiter

open Execution

/-!
# The rate limiter

A call puts its second into a sorted set from which the seconds of the last
minute have not been taken out, and is accepted if fewer calls than the limit
were there before it.  The set has the refused calls as well as the accepted
ones, and the time of a call is cut to the whole second.

Times are microseconds.  One key of the store, that of one token and tier, is
followed; the four commands of the pipeline are one transaction.
-/

def defaultLimits : List (Int × Int) := [(1, 1), (2, 50), (3, 500)]

def windowSec : Int := 60

def minute : Nat := 60000000

inductive Refusal where
  | keyError (tier : Int)
  | rateLimitExceeded (retryAfterSeconds limit : Int)
  deriving DecidableEq

/-- `RateLimiter(tier_limits=...)`; a mapping that is empty or missing leaves the defaults. -/
def tierLimits (given : Option (List (Int × Int))) : List (Int × Int) :=
  match given with
  | none => defaultLimits
  | some limits => if limits.isEmpty then defaultLimits else limits

def second (time : Nat) : Int := (time / 1000000 : Nat)

/-- The text of a member names, for one token, the second and the random bytes. -/
structure Member where
  second : Int
  nonce : BitVec 32
  deriving DecidableEq

/-- The members with their scores, the last one added at the end, and when the key expires. -/
structure SortedSet where
  members : List (Member × Int) := []
  expiresAt : Option Nat := none

namespace SortedSet

/-- What the store still has under the key. -/
def present (set : SortedSet) (time : Nat) : SortedSet :=
  match set.expiresAt with
  | some expiry => if expiry ≤ time then {} else set
  | none => set

def zremrangebyscore (set : SortedSet) (low high : Int) : SortedSet :=
  { set with members := set.members.filter fun entry => !decide (low ≤ entry.2 ∧ entry.2 ≤ high) }

def zcard (set : SortedSet) : Int := set.members.length

/-- A member that is there already gets the new score. -/
def zadd (set : SortedSet) (member : Member) (score : Int) : SortedSet :=
  if set.members.any fun entry => entry.1 == member then
    { set with members := set.members.map fun entry =>
        if entry.1 == member then (member, score) else entry }
  else { set with members := set.members ++ [(member, score)] }

def expire (set : SortedSet) (expiry : Nat) : SortedSet :=
  { set with expiresAt := some expiry }

def earliest (set : SortedSet) : Option Int :=
  (set.members.map Prod.snd).min?

end SortedSet

def retryAfter (now : Int) (earliest : Option Int) : Int :=
  match earliest with
  | some score => max 1 (windowSec - (now - score) + 1)
  | none => max 1 windowSec

/-- The pipeline: how many members were left, and the set with the new one. -/
def consume (time : Nat) (nonce : BitVec 32) (set : SortedSet) : Int × SortedSet :=
  let now := second time
  let left := (set.present time).zremrangebyscore 0 (now - windowSec)
  (left.zcard, (left.zadd ⟨now, nonce⟩ now).expire (time + 65000000))

def checkAndConsume (limits : List (Int × Int)) (tier : Int) (time : Nat) (nonce : BitVec 32)
    (set : SortedSet) : Except Refusal Unit × SortedSet :=
  match limits.lookup tier with
  | none => (.error (.keyError tier), set)
  | some limit =>
    let consumed := consume time nonce set
    if limit ≤ consumed.1 then
      (.error (.rateLimitExceeded (retryAfter (second time) consumed.2.earliest) limit), consumed.2)
    else (.ok (), consumed.2)

structure Call where
  time : Nat
  verdict : Except Refusal Unit
  deriving DecidableEq

def Call.accepted (call : Call) : Bool :=
  match call.verdict with
  | .ok _ => true
  | .error _ => false

/-- The stored set, the clock and the calls so far. -/
structure Calls where
  set : SortedSet := {}
  clock : Nat := 0
  made : List Call := []

structure Attempt where
  elapsed : Nat
  nonce : BitVec 32

def attempt (limits : List (Int × Int)) (tier : Int) (state : Calls) (input : Attempt) : Calls :=
  let time := state.clock + input.elapsed
  let answer := checkAndConsume limits tier time input.nonce state.set
  { set := answer.2, clock := time, made := state.made ++ [⟨time, answer.1⟩] }

def calling (limits : List (Int × Int)) (tier : Int) : Machine Calls Attempt where
  initial := {}
  step := attempt limits tier

/-- The accepted calls of the last sixty seconds. -/
def acceptedBefore (time : Nat) (calls : List Call) : List Call :=
  recent Call.accepted Call.time minute time calls

structure Limited (limit : Int) (calls : List Call) : Prop where
  bounded : ∀ start,
    ((within Call.accepted Call.time minute start calls).length : Int) ≤ limit
  rejectedAtLimit : ∀ before call after, calls = before ++ call :: after ->
    call.accepted = false -> limit ≤ ((acceptedBefore call.time before).length : Int)
  heeded : ∀ before refused next after seconds reported,
    calls = before ++ refused :: next :: after ->
    refused.verdict = .error (.rateLimitExceeded seconds reported) ->
    (refused.time : Int) + seconds * 1000000 ≤ next.time -> next.accepted = true

/-- The second of the call is still in the set when a call is made at the time. -/
def counted (time : Nat) (call : Call) : Bool :=
  decide (second time - windowSec < second call.time)

/-- A call whose second is sixty seconds back has been made sixty seconds ago. -/
def Aged (time : Nat) (calls : List Call) : Prop :=
  ∀ call ∈ calls, call.accepted = true -> counted time call = false ->
    call.time + minute ≤ time

/-- No refused call is still in the set, or the accepted ones fill it up by themselves. -/
def Unblocked (limit : Int) (time : Nat) (calls : List Call) : Prop :=
  (∀ call ∈ calls, counted time call = true -> call.accepted = true) ∨
    limit ≤ ((calls.filter fun call => call.accepted && counted time call).length : Int)

/-- The random bytes are not those of a member which has the same second. -/
def Distinct (state : Calls) (input : Attempt) : Prop :=
  ∀ entry ∈ state.set.members,
    entry.1 ≠ ⟨second (state.clock + input.elapsed), input.nonce⟩

instance (time : Nat) (calls : List Call) : Decidable (Aged time calls) :=
  inferInstanceAs (Decidable (∀ call ∈ calls, _))

instance (limit : Int) (time : Nat) (calls : List Call) : Decidable (Unblocked limit time calls) :=
  inferInstanceAs (Decidable ((∀ call ∈ calls, _) ∨ _))

instance (state : Calls) (input : Attempt) : Decidable (Distinct state input) :=
  inferInstanceAs (Decidable (∀ entry ∈ state.set.members, _))

structure Timely (limit : Int) (state : Calls) (input : Attempt) : Prop where
  distinct : Distinct state input
  aged : Aged (state.clock + input.elapsed) state.made
  unblocked : Unblocked limit (state.clock + input.elapsed) state.made

/-! ## What the set holds -/

def Judged (limit : Int) (before : List Call) (call : Call) : Prop :=
  match call.verdict with
  | .ok _ => ((before.filter (counted call.time)).length : Int) < limit
  | .error refusal =>
    limit ≤ ((before.filter (counted call.time)).length : Int) ∧
      ∃ first ∈ before.filter (counted call.time) ++ [call],
        (∀ other ∈ before.filter (counted call.time) ++ [call],
          second first.time ≤ second other.time) ∧
        refusal = .rateLimitExceeded
          (max 1 (windowSec - (second call.time - second first.time) + 1)) limit

structure Recorded (limit : Int) (before : List Call) (call : Call) : Prop where
  later : ∀ other ∈ before, other.time ≤ call.time
  judged : Judged limit before call
  aged : Aged call.time before
  unblocked : Unblocked limit call.time before

structure Sound (limit : Int) (state : Calls) : Prop where
  past : ∀ call ∈ state.made, call.time ≤ state.clock
  members : state.set.members.map Prod.snd =
    (state.made.filter (counted state.clock)).map fun call => second call.time
  expiry : ∀ expiry, state.set.expiresAt = some expiry -> state.clock + 65000000 ≤ expiry
  recorded : ∀ before call after, state.made = before ++ call :: after ->
    Recorded limit before call

theorem second_mono {earlier later : Nat} (order : earlier ≤ later) :
    second earlier ≤ second later := by
  unfold second
  omega

theorem counted_iff {time : Nat} {call : Call} :
    counted time call = true <-> second time - 60 < second call.time := by
  unfold counted windowSec
  exact decide_eq_true_iff

theorem counted_earlier {earlier later : Nat} {call : Call} (order : earlier ≤ later)
    (counts : counted later call = true) : counted earlier call = true := by
  have seconds := second_mono order
  rw [counted_iff] at counts ⊢
  omega

variable {limit : Int} {state : Calls} {input : Attempt} {time : Nat}

theorem Sound.expired (sound : Sound limit state) {expiry : Nat}
    (expires : state.set.expiresAt = some expiry) (ended : expiry ≤ time) :
    state.made.filter (counted time) = [] := by
  have lasts := sound.expiry expiry expires
  apply List.filter_eq_nil_iff.mpr
  intro call member counts
  have past := sound.past call member
  rw [counted_iff] at counts
  unfold second at counts
  omega

theorem filter_counted_later (later : state.clock ≤ time) :
    (state.made.filter (counted state.clock)).filter (counted time) =
      state.made.filter (counted time) := by
  rw [List.filter_filter]
  apply List.filter_congr
  intro call _
  cases counts : counted time call with
  | false => rfl
  | true => exact counted_earlier later counts

theorem Sound.left (sound : Sound limit state) (later : state.clock ≤ time) :
    (((state.set.present time).zremrangebyscore 0 (second time - windowSec)).members.map Prod.snd) =
      (state.made.filter (counted time)).map fun call => second call.time := by
  have evicted : ((state.set.zremrangebyscore 0 (second time - windowSec)).members.map Prod.snd) =
      (state.made.filter (counted time)).map fun call => second call.time := by
    have scores : ((state.set.zremrangebyscore 0 (second time - windowSec)).members.map Prod.snd) =
        (state.set.members.map Prod.snd).filter fun score =>
          !decide (0 ≤ score ∧ score ≤ second time - windowSec) := by
      rw [List.filter_map]
      rfl
    rw [scores, sound.members, List.filter_map, ← filter_counted_later later]
    apply congrArg (List.map _)
    apply List.filter_congr
    intro call _
    have positive : 0 ≤ second call.time := Int.natCast_nonneg _
    unfold counted
    rw [Function.comp_apply, ← decide_not, decide_eq_decide]
    omega
  unfold SortedSet.present
  split
  case h_1 expiry expires =>
    split
    case isTrue ended =>
      rw [sound.expired expires ended]
      rfl
    case isFalse => exact evicted
  case h_2 => exact evicted

theorem mem_left {entry : Member × Int} (member : entry ∈
      ((state.set.present time).zremrangebyscore 0 (second time - windowSec)).members) :
    entry ∈ state.set.members := by
  have kept := (List.mem_filter.mp member).1
  unfold SortedSet.present at kept
  split at kept
  case h_1 =>
    split at kept
    case isTrue => cases kept
    case isFalse => exact kept
  case h_2 => exact kept

theorem Sound.consumes (sound : Sound limit state) (distinct : Distinct state input) :
    (consume (state.clock + input.elapsed) input.nonce state.set).1 =
        (state.made.filter (counted (state.clock + input.elapsed))).length ∧
      (consume (state.clock + input.elapsed) input.nonce state.set).2.members.map Prod.snd =
        (state.made.filter (counted (state.clock + input.elapsed))).map
          (fun call => second call.time) ++ [second (state.clock + input.elapsed)] ∧
      (consume (state.clock + input.elapsed) input.nonce state.set).2.expiresAt =
        some (state.clock + input.elapsed + 65000000) := by
  have left := sound.left (Nat.le_add_right state.clock input.elapsed)
  have fresh : (((state.set.present (state.clock + input.elapsed)).zremrangebyscore 0
      (second (state.clock + input.elapsed) - windowSec)).members.any fun entry =>
        entry.1 == (⟨second (state.clock + input.elapsed), input.nonce⟩ : Member)) = false := by
    apply List.any_eq_false.mpr
    intro entry member same
    exact distinct entry (mem_left member) (beq_iff_eq.mp same)
  refine ⟨?_, ?_, rfl⟩
  · have lengths := congrArg List.length left
    rw [List.length_map, List.length_map] at lengths
    exact congrArg Nat.cast lengths
  · unfold consume SortedSet.zadd
    dsimp only
    rw [fresh, if_neg Bool.false_ne_true]
    unfold SortedSet.expire
    dsimp only
    rw [List.map_append, left]
    rfl

theorem earliest_eq {set : SortedSet} {calls : List Call} {call : Call}
    (members : set.members.map Prod.snd =
      calls.map (fun other => second other.time) ++ [second call.time]) : ∃ first ∈ calls ++ [call],
      (∀ other ∈ calls ++ [call], second first.time ≤ second other.time) ∧
      set.earliest = some (second first.time) := by
  have whole : set.members.map Prod.snd =
      (calls ++ [call]).map fun other => second other.time := by
    rw [members, List.map_append, List.map_singleton]
  unfold SortedSet.earliest
  rw [whole]
  have some_ : ∃ score,
      ((calls ++ [call]).map fun other => second other.time).min? = some score := by
    apply Option.ne_none_iff_exists'.mp
    intro none
    rw [List.min?_eq_none_iff, List.map_eq_nil_iff] at none
    exact List.append_ne_nil_of_right_ne_nil calls (List.cons_ne_nil call []) none
  rcases some_ with ⟨score, lowest⟩
  rw [lowest]
  rcases List.min?_eq_some_iff.mp lowest with ⟨member, below⟩
  rcases List.mem_map.mp member with ⟨first, isMember, same⟩
  refine ⟨first, isMember, ?_, congrArg some same.symm⟩
  intro other otherMember
  rw [same]
  exact below _ (List.mem_map_of_mem otherMember)

variable {limits : List (Int × Int)} {tier : Int}

theorem sound_initial : Sound limit ({} : Calls) where
  past := fun _ absent => nomatch absent
  members := rfl
  expiry := fun _ absent => nomatch absent
  recorded := by
    intro before call after split
    cases before <;> cases split

theorem Sound.judges (sound : Sound limit state) (limited : limits.lookup tier = some limit)
    (distinct : Distinct state input) : Judged limit state.made ⟨state.clock + input.elapsed,
      (checkAndConsume limits tier (state.clock + input.elapsed) input.nonce state.set).1⟩ := by
  have consumes := sound.consumes distinct
  unfold Judged checkAndConsume
  rw [limited]
  dsimp only
  rw [consumes.1]
  by_cases full : limit ≤ ((state.made.filter (counted (state.clock + input.elapsed))).length : Int)
  · rw [if_pos full]
    rcases @earliest_eq _ _ ⟨state.clock + input.elapsed, .error (.rateLimitExceeded (retryAfter
        (second (state.clock + input.elapsed)) (consume (state.clock + input.elapsed) input.nonce
          state.set).2.earliest) limit)⟩ consumes.2.1 with ⟨first, member, lowest, earliest⟩
    refine ⟨full, first, member, lowest, ?_⟩
    rw [earliest]
    rfl
  · rw [if_neg full]
    exact lt_of_not_ge full

theorem sound_attempt (sound : Sound limit state) (limited : limits.lookup tier = some limit)
    (timely : Timely limit state input) : Sound limit (attempt limits tier state input) := by
  have consumes := sound.consumes timely.distinct
  have judged := sound.judges limited timely.distinct
  have stored : (attempt limits tier state input).set =
      (consume (state.clock + input.elapsed) input.nonce state.set).2 := by
    unfold attempt checkAndConsume
    rw [limited]
    dsimp only
    split <;> rfl
  have past : ∀ call ∈ state.made, call.time ≤ state.clock + input.elapsed :=
    fun call member => Nat.le_trans (sound.past call member) (Nat.le_add_right _ _)
  refine ⟨?_, ?_, ?_, ?_⟩
  · intro call member
    rcases List.mem_append.mp member with old | new
    · exact past call old
    · rw [List.mem_singleton.mp new]
      exact Nat.le_refl _
  · rw [stored, consumes.2.1]
    unfold attempt
    dsimp only
    have counts : counted (state.clock + input.elapsed) ⟨state.clock + input.elapsed,
        (checkAndConsume limits tier (state.clock + input.elapsed) input.nonce state.set).1⟩ =
          true := by
      rw [counted_iff]
      dsimp only
      omega
    rw [List.filter_append, List.filter_singleton, counts, cond_true, List.map_append]
    rfl
  · intro expiry expires
    rw [stored, consumes.2.2] at expires
    cases expires
    exact Nat.le_refl _
  · refine forall_split_append sound.recorded ?_
    intro before call after split
    cases before with
    | nil =>
      cases split
      rw [List.append_nil]
      exact ⟨past, judged, timely.aged, timely.unblocked⟩
    | cons head tail => cases tail <;> cases split

/-! ## From the records to the promises -/

section

variable {calls before after : List Call} {call refused next : Call}

theorem counted_of_recent (aged : Aged time calls) {other : Call} (member : other ∈ calls)
    (accepted : other.accepted = true) (young : time < other.time + minute) :
    counted time other = true := by
  by_contra gone
  rw [Bool.not_eq_true] at gone
  have old := aged other member accepted gone
  omega

theorem recent_of_counted (counts : counted time call = true) : time < call.time + minute := by
  rw [counted_iff] at counts
  unfold second at counts
  unfold minute
  omega

theorem bounded_of_recorded (positive : 0 < limit)
    (recorded : ∀ before call after, calls = before ++ call :: after ->
      Recorded limit before call) (start : Nat) :
    ((within Call.accepted Call.time minute start calls).length : Int) ≤ limit := by
  refine @measure_within_le _ _ _ _ _ _ _ _ _ _ (fun some => (some.length : Int)) _ _ ?_ ?_ ?_ start
  · intro fewer more sublist _
    exact Int.ofNat_le.mpr sublist.length_le
  · exact Int.le_of_lt positive
  · intro before call after split accepted
    have record := recorded before call after split
    have judged := record.judged
    unfold Judged at judged
    cases verdict : call.verdict with
    | error refusal =>
      unfold Call.accepted at accepted
      rw [verdict] at accepted
      cases accepted
    | ok _ =>
      rw [verdict] at judged
      dsimp only at judged
      have others : (recent Call.accepted Call.time minute call.time before).length ≤
          (before.filter (counted call.time)).length := by
        unfold recent
        rw [← List.countP_eq_length_filter, ← List.countP_eq_length_filter]
        apply List.countP_mono_left
        intro other member young
        simp only [Bool.and_eq_true, decide_eq_true_eq] at young
        exact counted_of_recent record.aged member young.1 young.2
      have whole : (recent Call.accepted Call.time minute call.time (before ++ [call])).length ≤
          (recent Call.accepted Call.time minute call.time before).length + 1 := by
        unfold recent
        rw [List.filter_append, List.length_append]
        exact Nat.add_le_add_left (List.length_filter_le _ [call]) _
      omega

theorem rejectedAtLimit_of_recorded (record : Recorded limit before call)
    (refused : call.accepted = false) :
    limit ≤ ((before.filter fun other => other.accepted && counted call.time other).length : Int) := by
  have judged := record.judged
  unfold Judged at judged
  cases verdict : call.verdict with
  | ok _ =>
    unfold Call.accepted at refused
    rw [verdict] at refused
    cases refused
  | error refusal =>
    rw [verdict] at judged
    rcases record.unblocked with every | full
    · have same : before.filter (counted call.time) =
          before.filter fun other => other.accepted && counted call.time other := by
        apply List.filter_congr
        intro other member
        cases counts : counted call.time other with
        | false => rw [Bool.and_false]
        | true => rw [every other member counts, Bool.true_and]
      rw [← same]
      exact judged.1
    · exact full

theorem length_acceptedBefore_le :
    (before.filter fun other => other.accepted && counted time other).length ≤
      (acceptedBefore time before).length := by
  unfold acceptedBefore recent
  rw [← List.countP_eq_length_filter, ← List.countP_eq_length_filter]
  apply List.countP_mono_left
  intro other _ both
  rw [Bool.and_eq_true] at both
  rw [Bool.and_eq_true, decide_eq_true_eq]
  exact ⟨both.1, recent_of_counted both.2⟩

theorem heeded_of_recorded (positive : 0 < limit)
    (recorded : ∀ before call after, calls = before ++ call :: after -> Recorded limit before call)
    {seconds reported : Int} (split : calls = before ++ refused :: next :: after)
    (verdict : refused.verdict = .error (.rateLimitExceeded seconds reported))
    (waited : (refused.time : Int) + seconds * 1000000 ≤ next.time) : next.accepted = true := by
  by_contra rejected
  rw [Bool.not_eq_true] at rejected
  have record := recorded before refused (next :: after) split
  have nextRecord := recorded (before ++ [refused]) next after (by rw [split, List.append_assoc]; rfl)
  have full := rejectedAtLimit_of_recorded nextRecord rejected
  have refusedItself : refused.accepted = false := by
    unfold Call.accepted
    rw [verdict]
  rw [List.filter_append, List.filter_singleton, refusedItself, Bool.false_and, cond_false,
    List.append_nil] at full
  -- The first call in the set when this one was refused has left it since.
  have judged := record.judged
  unfold Judged at judged
  rw [verdict] at judged
  rcases judged with ⟨_, first, member, lowest, same⟩
  have told : 61 - (second refused.time - second first.time) ≤ seconds := by
    cases same
    unfold windowSec
    omega
  have gap : second first.time + 61 ≤ second next.time := by
    unfold second at told ⊢
    omega
  -- Among the calls still in the set, all of them accepted later, is a last one.
  rcases List.eq_nil_or_concat' (before.filter fun other => other.accepted && counted next.time other)
    with empty | ⟨init, last, concat⟩
  · rw [empty] at full
    exact absurd positive (Int.not_lt.mpr full)
  rcases List.filter_eq_append_iff.mp concat with ⟨front, back, whole, frontOnly, backOnly⟩
  rcases List.filter_eq_cons_iff.mp backOnly with ⟨middle, rest, parts, none, isLast, _⟩
  have place : before = (front ++ middle) ++ last :: rest := by
    rw [whole, parts, List.append_assoc]
  rw [Bool.and_eq_true] at isLast
  have lastCounts := counted_iff.mp isLast.2
  have lastMember : last ∈ before := by
    rw [place]
    exact List.mem_append_right _ List.mem_cons_self
  have lastRecord := recorded (front ++ middle) last (rest ++ refused :: next :: after)
    (by rw [split, place, List.append_assoc]; rfl)
  have lastTime := record.later last lastMember
  have lastSecond := second_mono lastTime
  have firstMember : first ∈ before := by
    rcases List.mem_append.mp member with old | new
    · exact (List.mem_filter.mp old).1
    · rw [List.mem_singleton.mp new] at gap
      omega
  have firstCounts : counted refused.time first = true := by
    rcases List.mem_append.mp member with old | new
    · exact (List.mem_filter.mp old).2
    · rw [List.mem_singleton.mp new] at gap
      omega
  have firstEarly : first ∈ front ++ middle := by
    rw [place] at firstMember
    rcases List.mem_append.mp firstMember with early | late
    · exact early
    · rcases List.mem_cons.mp late with same | behind
      · rw [same] at gap
        omega
      · rcases List.append_of_mem behind with ⟨one, two, cut⟩
        have firstRecord := recorded ((front ++ middle) ++ last :: one) first
          (two ++ refused :: next :: after) (by
            rw [split, place, cut]
            simp only [List.append_assoc, List.cons_append])
        have order := second_mono (firstRecord.later last
          (List.mem_append_right _ List.mem_cons_self))
        omega
  -- When it was accepted, the others and the first call of the set were in the set.
  have judged := lastRecord.judged
  unfold Judged at judged
  have counting : init.length + 1 ≤ ((front ++ middle).filter (counted last.time)).length := by
    have early : init = ((front ++ middle).filter (counted last.time)).filter fun other =>
        other.accepted && counted next.time other := by
      have middleOnly : middle.filter (fun other => other.accepted && counted next.time other) = [] :=
        List.filter_eq_nil_iff.mpr none
      rw [List.filter_filter, ← frontOnly, ← List.append_nil (front.filter _), ← middleOnly,
        ← List.filter_append]
      apply List.filter_congr
      intro other among
      cases counts : counted next.time other with
      | false => rw [Bool.and_false, Bool.false_and]
      | true =>
        have order : last.time ≤ next.time :=
          nextRecord.later last (List.mem_append_left _ lastMember)
        rw [counted_earlier order counts, Bool.and_true, Bool.and_true]
    rw [early]
    refine List.length_filter_lt_length_iff_exists.mpr ⟨first, ?_, ?_⟩
    · exact List.mem_filter.mpr ⟨firstEarly, counted_earlier lastTime firstCounts⟩
    · rw [Bool.and_eq_true, counted_iff]
      omega
  cases accepts : last.verdict with
  | error refusal =>
    have accepted := isLast.1
    unfold Call.accepted at accepted
    rw [accepts] at accepted
    cases accepted
  | ok _ =>
    rw [accepts] at judged
    dsimp only at judged
    rw [concat, List.length_append, List.length_singleton] at full
    omega

theorem limited_of_recorded (positive : 0 < limit)
    (recorded : ∀ before call after, calls = before ++ call :: after ->
      Recorded limit before call) : Limited limit calls where
  bounded := bounded_of_recorded positive recorded
  rejectedAtLimit := by
    intro before call after split refused
    have full := rejectedAtLimit_of_recorded (recorded before call after split) refused
    exact le_trans full (Int.ofNat_le.mpr length_acceptedBefore_le)
  heeded := fun _ _ _ _ _ _ split verdict waited =>
    heeded_of_recorded positive recorded split verdict waited

end

/-- With a positive limit the promises are kept throughout if no call is made while
refused ones block the set, and no second is given up before its time. -/
theorem limited_run (limits : List (Int × Int)) (tier limit : Int)
    (limited : limits.lookup tier = some limit) (positive : 0 < limit) (inputs : List Attempt)
    (timely : (calling limits tier).EveryStep (Timely limit) inputs) :
    (calling limits tier).EveryState (fun state => Limited limit state.made) inputs := by
  have sound := (calling limits tier).guarded_everyState (Sound limit) (Timely limit) sound_initial
    (fun _ _ sound timely => sound_attempt sound limited timely) inputs timely
  exact fun before rest split => limited_of_recorded positive (sound before rest split).recorded

/-- Thirty seconds after an accepted call the next one is refused and told to wait for
thirty-one; the third comes a minute after the second. -/
def patientCalls : List Attempt :=
  [⟨1000000, 0⟩, ⟨30000000, 1⟩, ⟨60000000, 2⟩]

theorem limited_patientCalls :
    (calling (tierLimits none) 1).EveryState (fun state => Limited 1 state.made) patientCalls := by
  refine limited_run (tierLimits none) 1 1 rfl (by decide) patientCalls ?_
  refine (Machine.everyStep_iff_stepsFrom _ _ _).mpr ?_
  exact ⟨⟨by decide, by decide, by decide⟩, ⟨by decide, by decide, by decide⟩,
    ⟨by decide, by decide, by decide⟩, trivial⟩

/-- The third call comes when the second was told to come, and is refused again. -/
def promptCalls : List Attempt :=
  [⟨1000000, 0⟩, ⟨30000000, 1⟩, ⟨31000000, 2⟩]

theorem refused_call_counted :
    Not ((calling (tierLimits none) 1).EveryState (fun state => Limited 1 state.made) promptCalls) := by
  intro every
  have limited := Machine.EveryState.last _ every
  have made : ((calling (tierLimits none) 1).after promptCalls).made =
      [⟨1000000, .ok ()⟩, ⟨31000000, .error (.rateLimitExceeded 31 1)⟩,
        ⟨62000000, .error (.rateLimitExceeded 30 1)⟩] := by decide
  rw [made] at limited
  have accepted := limited.heeded [⟨1000000, .ok ()⟩] _ _ [] 31 1 rfl rfl (by decide)
  cases accepted

end RateLimiter
end Messenger
end BreadMind
