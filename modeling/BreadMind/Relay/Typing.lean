import BreadMind.Execution.Dict
import BreadMind.Execution.Machine
import BreadMind.Relay.Session
import BreadMind.Text.Splitting
import Mathlib.Data.Set.Basic

namespace BreadMind
namespace Relay

open Execution

/-!
# Who is typing

A typing mark is a key of Redis which is made of the channel and the user and
expires by itself.  The users who type in a channel are read back by a scan for
the keys which match a glob pattern, of which the third part is the user.

Redis decides which keys match a pattern and in which order a scan returns them,
possibly more than once.
-/

def typingKey (channelId : ChannelId) (userId : UserId) : String :=
  "typing:" ++ channelId ++ ":" ++ userId

def typingPattern (channelId : ChannelId) : String :=
  "typing:" ++ channelId ++ ":*"

/-- The third part of a key, if it has three. -/
def typingUser (key : String) : Option UserId :=
  match Text.splitN ':' 3 key.toList with
  | [_, _, user] => some (String.ofList user)
  | _ => none

structure Mark where
  channelId : ChannelId
  userId : UserId
  at_ : Nat

/-- The keys with the time they expire at, if they do, next to the marks so far. -/
structure Tracker where
  now : Nat := 0
  store : Dict String (Option Nat) := []
  marks : List Mark := []

namespace Tracker

/-- A zero duration is none. -/
def expiry (ttl now : Nat) : Option Nat :=
  if ttl = 0 then none else some (now + ttl)

def mark (ttl : Nat) (tracker : Tracker) (channelId : ChannelId) (userId : UserId) : Tracker :=
  { tracker with
    store := tracker.store.set (typingKey channelId userId) (expiry ttl tracker.now)
    marks := tracker.marks ++ [{ channelId, userId, at_ := tracker.now }] }

inductive Input where
  | mark (channelId : ChannelId) (userId : UserId)
  | elapse (duration : Nat)

def machine (ttl : Nat) : Machine Tracker Input where
  initial := {}
  step := fun tracker input =>
    match input with
    | .mark channelId userId => tracker.mark ttl channelId userId
    | .elapse duration => { tracker with now := tracker.now + duration }

def Live (tracker : Tracker) (key : String) : Prop :=
  ∃ expires, tracker.store.lookup key = some expires ∧
    ∀ time, expires = some time -> tracker.now < time

/-- The user was marked in the channel and the mark has not run out. -/
def Marked (ttl : Nat) (tracker : Tracker) (channelId : ChannelId) (userId : UserId) : Prop :=
  ∃ mark ∈ tracker.marks, mark.channelId = channelId ∧ mark.userId = userId ∧
    (ttl = 0 ∨ tracker.now < mark.at_ + ttl)

/-- The pages of a whole scan: every live key that matches, and no other one. -/
def Scanned (glob : String -> String -> Bool) (tracker : Tracker) (channelId : ChannelId)
    (pages : List (List String)) : Prop :=
  ∀ key, key ∈ pages.flatten <->
    tracker.Live key ∧ glob (typingPattern channelId) key = true

/-- `Active`, given what each call of SCAN returns. -/
def active (users : List UserId) : List (Except String (List String)) -> Except String (List UserId)
  | [] => .ok users
  | .error failure :: _ => .error failure
  | .ok keys :: rest => active (users ++ keys.filterMap typingUser) rest

/-- Exactly the users marked in the channel, each of them once. -/
def Right (ttl : Nat) (tracker : Tracker) (channelId : ChannelId) (pages : List (List String)) : Prop :=
  ∃ users, active [] (pages.map .ok) = .ok users ∧ users.Nodup ∧
    ∀ userId, userId ∈ users <-> tracker.Marked ttl channelId userId

/-- The identifiers hold no colon, and as a pattern each matches its own keys only. -/
def Plain (glob : String -> String -> Bool) (channels : Set ChannelId) : Prop :=
  ∀ channelId ∈ channels, ':' ∉ channelId.toList ∧
    ∀ other ∈ channels, ∀ userId,
      glob (typingPattern channelId) (typingKey other userId) = true <-> other = channelId

/-- All marks of the run are in these channels. -/
def Within (channels : Set ChannelId) (inputs : List Input) : Prop :=
  ∀ channelId userId, .mark channelId userId ∈ inputs -> channelId ∈ channels

theorem toList_typingKey (channelId : ChannelId) (userId : UserId) :
    (typingKey channelId userId).toList =
      "typing".toList ++ ':' :: (channelId.toList ++ ':' :: userId.toList) := by
  unfold typingKey
  simp only [String.toList_append, List.append_assoc]
  rfl

variable {key : String}

theorem typingUser_of_toList {channel user : List Char} (free : ':' ∉ channel)
    (parts : key.toList = "typing".toList ++ ':' :: (channel ++ ':' :: user)) :
    typingUser key = some (String.ofList user) := by
  unfold typingUser
  rw [parts, Text.splitN_three (by decide) free]

theorem typingUser_typingKey {channelId : ChannelId} (free : ':' ∉ channelId.toList)
    (userId : UserId) : typingUser (typingKey channelId userId) = some userId := by
  rw [typingUser_of_toList free (toList_typingKey channelId userId), String.ofList_toList]

theorem typingUser_isSome (channelId : ChannelId) (userId : UserId) :
    ∃ shown, typingUser (typingKey channelId userId) = some shown ∧
      (shown = userId -> ':' ∉ channelId.toList) := by
  by_cases colon : ':' ∈ channelId.toList
  · rcases List.eq_append_cons_of_mem colon with ⟨before, after, same, free⟩
    have parts : (typingKey channelId userId).toList =
        "typing".toList ++ ':' :: (before ++ ':' :: (after ++ ':' :: userId.toList)) := by
      rw [toList_typingKey, same, List.append_assoc, List.cons_append]
    refine ⟨_, typingUser_of_toList free parts, fun whole => ?_⟩
    have lengths := congrArg (fun text => text.toList.length) whole
    simp only [String.toList_ofList, List.length_append, List.length_cons] at lengths
    omega
  · exact ⟨userId, typingUser_typingKey colon userId, fun _ => colon⟩

theorem typingKey_injective {channelId : ChannelId} {first second : UserId}
    (same : typingKey channelId first = typingKey channelId second) : first = second := by
  have lists := congrArg String.toList same
  rw [toList_typingKey, toList_typingKey] at lists
  have parts := List.append_cancel_left lists
  rw [List.cons.injEq] at parts
  have rest := List.append_cancel_left parts.2
  rw [List.cons.injEq] at rest
  exact String.toList_inj.mp rest.2

theorem typingKey_parts {channelId other : ChannelId} (free : ':' ∉ channelId.toList)
    (otherFree : ':' ∉ other.toList) {first second : UserId}
    (same : typingKey channelId first = typingKey other second) :
    channelId = other ∧ first = second := by
  have lists := congrArg String.toList same
  rw [toList_typingKey, toList_typingKey] at lists
  have parts := List.append_cancel_left lists
  rw [List.cons.injEq] at parts
  have cuts := congrArg (Text.cut ':') parts.2
  rw [Text.cut_append free, Text.cut_append otherFree] at cuts
  have pair := Prod.mk_inj.mp (Option.some.inj cuts)
  exact ⟨String.toList_inj.mp pair.1, String.toList_inj.mp pair.2⟩

theorem active_ok (users : List UserId) (pages : List (List String)) :
    active users (pages.map .ok) = .ok (users ++ pages.flatten.filterMap typingUser) := by
  induction pages generalizing users with
  | nil => rw [List.flatten_nil, List.filterMap_nil, List.append_nil]; rfl
  | cons page rest ih =>
    rw [List.flatten_cons, List.filterMap_append, ← List.append_assoc]
    exact ih _

/-! ## The store and the marks -/

structure Traced (ttl : Nat) (tracker : Tracker) : Prop where
  marked : ∀ mark ∈ tracker.marks, mark.at_ ≤ tracker.now ∧
    ∃ later, mark.at_ ≤ later ∧
      tracker.store.lookup (typingKey mark.channelId mark.userId) = some (expiry ttl later)
  set : ∀ key expires, tracker.store.lookup key = some expires ->
    ∃ mark ∈ tracker.marks, typingKey mark.channelId mark.userId = key ∧
      expires = expiry ttl mark.at_

variable {ttl : Nat} {tracker : Tracker} {channels : Set ChannelId} {channelId : ChannelId}
  {glob : String -> String -> Bool}

theorem traced_initially : Traced ttl (machine ttl).initial where
  marked _ member := by cases member
  set _ _ found := by cases found

theorem Traced.mark (traced : Traced ttl tracker) (channelId : ChannelId) (userId : UserId) :
    Traced ttl (tracker.mark ttl channelId userId) := by
  have lookup (key : String) : (tracker.mark ttl channelId userId).store.lookup key =
      if key = typingKey channelId userId then some (expiry ttl tracker.now)
      else tracker.store.lookup key := Dict.lookup_set _ _ _ _
  constructor
  · intro mark member
    rcases List.mem_append.mp member with old | new
    · rcases traced.marked mark old with ⟨past, later, notBefore, found⟩
      refine ⟨past, ?_⟩
      by_cases same : typingKey mark.channelId mark.userId = typingKey channelId userId
      · exact ⟨tracker.now, past, (lookup _).trans (if_pos same)⟩
      · exact ⟨later, notBefore, (lookup _).trans ((if_neg same).trans found)⟩
    · cases List.mem_singleton.mp new
      exact ⟨Nat.le_refl _, tracker.now, Nat.le_refl _, (lookup _).trans (if_pos rfl)⟩
  · intro key expires found
    rw [lookup] at found
    split at found
    · rename_i same
      cases found
      exact ⟨_, List.mem_append_right _ (List.mem_singleton_self _), same.symm, rfl⟩
    · rcases traced.set key expires found with ⟨mark, member, keyed, expiring⟩
      exact ⟨mark, List.mem_append_left _ member, keyed, expiring⟩

theorem Traced.elapse (traced : Traced ttl tracker) (duration : Nat) :
    Traced ttl { tracker with now := tracker.now + duration } where
  marked mark member := by
    rcases traced.marked mark member with ⟨past, later⟩
    exact ⟨Nat.le_trans past (Nat.le_add_right _ _), later⟩
  set := traced.set

theorem Traced.live_iff (traced : Traced ttl tracker) : tracker.Live key <-> ∃ mark ∈ tracker.marks,
      typingKey mark.channelId mark.userId = key ∧ (ttl = 0 ∨ tracker.now < mark.at_ + ttl) := by
  have lasts (at_ : Nat) : (∀ time, expiry ttl at_ = some time -> tracker.now < time) <->
      (ttl = 0 ∨ tracker.now < at_ + ttl) := by
    unfold expiry
    split
    · rename_i endless
      exact iff_of_true nofun (.inl endless)
    · rename_i ends
      rw [or_iff_right ends]
      exact ⟨fun all => all _ rfl, fun before time same => Option.some.inj same ▸ before⟩
  constructor
  · rintro ⟨expires, found, live⟩
    rcases traced.set key expires found with ⟨mark, member, keyed, rfl⟩
    exact ⟨mark, member, keyed, (lasts mark.at_).mp live⟩
  · rintro ⟨mark, member, rfl, live⟩
    rcases traced.marked mark member with ⟨_, later, notBefore, found⟩
    refine ⟨_, found, (lasts later).mpr (live.imp_right fun before => ?_)⟩
    exact Nat.lt_of_lt_of_le before (Nat.add_le_add_right notBefore ttl)

variable (ttl) in
theorem traced_run (inputs : List Input) (within : Within channels inputs) :
    Traced ttl ((machine ttl).after inputs) ∧
      ∀ mark ∈ ((machine ttl).after inputs).marks, mark.channelId ∈ channels := by
  refine (machine ttl).guarded_invariant
    (fun tracker => Traced ttl tracker ∧ ∀ mark ∈ tracker.marks, mark.channelId ∈ channels)
    (fun _ input => ∀ channelId userId, input = .mark channelId userId -> channelId ∈ channels)
    ⟨traced_initially, fun _ member => by cases member⟩ ?_ inputs ?_
  · rintro tracker input ⟨traced, inChannels⟩ allowed
    cases input with
    | mark channelId userId =>
      refine ⟨traced.mark channelId userId, fun mark member => ?_⟩
      rcases List.mem_append.mp member with old | new
      · exact inChannels mark old
      · cases List.mem_singleton.mp new
        exact allowed channelId userId rfl
    | elapse duration => exact ⟨traced.elapse duration, inChannels⟩
  · rintro before input rest rfl channelId userId rfl
    exact within channelId userId (List.mem_append_right before List.mem_cons_self)

/-! ## What is read back -/

theorem map_typingUser (free : ':' ∉ channelId.toList) {keys : List String}
    (own : ∀ key ∈ keys, ∃ userId, key = typingKey channelId userId) :
    (keys.filterMap typingUser).map (typingKey channelId) = keys := by
  induction keys with
  | nil => rfl
  | cons key rest ih =>
    rcases own key List.mem_cons_self with ⟨userId, rfl⟩
    rw [List.filterMap_cons_some (typingUser_typingKey free userId), List.map_cons]
    rw [ih fun other member => own other (List.mem_cons_of_mem _ member)]

/-- With plain identifiers the answer is right unless a key came twice. -/
theorem right_iff_nodup (plain : Plain glob channels) (traced : Traced ttl tracker)
    (within : ∀ mark ∈ tracker.marks, mark.channelId ∈ channels)
    (member : channelId ∈ channels) {pages : List (List String)}
    (scanned : tracker.Scanned glob channelId pages) :
    tracker.Right ttl channelId pages <-> pages.flatten.Nodup := by
  have free := (plain channelId member).1
  have own : ∀ key ∈ pages.flatten,
      ∃ userId, key = typingKey channelId userId := by
    intro key inPages
    rcases (scanned key).mp inPages with ⟨live, matching⟩
    rcases traced.live_iff.mp live with ⟨mark, inMarks, rfl, _⟩
    have same := ((plain channelId member).2 _ (within mark inMarks) _).mp matching
    exact ⟨mark.userId, by rw [same]⟩
  have whole := map_typingUser free own
  have users (userId : UserId) : userId ∈ pages.flatten.filterMap typingUser <->
      tracker.Marked ttl channelId userId := by
    have keyed : userId ∈ pages.flatten.filterMap typingUser <->
        typingKey channelId userId ∈ pages.flatten := by
      rw [← List.mem_map_of_injective (fun _ _ same => typingKey_injective same), whole]
    rw [keyed, scanned, and_iff_left (((plain channelId member).2 _ member _).mpr rfl)]
    rw [traced.live_iff]
    refine exists_congr fun mark => and_congr_right fun inMarks => ?_
    rw [← and_assoc]
    refine and_congr_left fun _ => ⟨fun same => ?_, fun same => by rw [same.1, same.2]⟩
    exact typingKey_parts (plain _ (within mark inMarks)).1 free same
  have distinct : (pages.flatten.filterMap typingUser).Nodup <-> pages.flatten.Nodup := by
    rw [← List.nodup_map_iff (f := typingKey channelId) fun _ _ same => typingKey_injective same]
    rw [whole]
  unfold Right
  rw [active_ok, List.nil_append]
  constructor
  · rintro ⟨_, same, nodup, _⟩
    cases same
    exact distinct.mp nodup
  · exact fun nodup => ⟨_, rfl, distinct.mpr nodup, users⟩

theorem live_after_mark {userId : UserId} :
    ((machine ttl).after [.mark channelId userId]).Live key <-> key = typingKey channelId userId := by
  have traced : Traced ttl ((machine ttl).after [.mark channelId userId]) :=
    traced_initially.mark channelId userId
  rw [traced.live_iff]
  constructor
  · rintro ⟨mark, member, rfl, _⟩
    cases List.mem_singleton.mp member
    rfl
  · rintro rfl
    refine ⟨_, List.mem_singleton_self _, rfl, ?_⟩
    rcases Nat.eq_zero_or_pos ttl with none_ | positive
    · exact .inl none_
    · exact .inr (Nat.lt_add_of_pos_right positive)

theorem scanned_after_mark {other : ChannelId} {userId : UserId} :
    ((machine ttl).after [.mark channelId userId]).Scanned glob other
      (if glob (typingPattern other) (typingKey channelId userId) then
        [[typingKey channelId userId]] else []) := by
  intro key
  rw [live_after_mark]
  split
  · rename_i matching
    rw [List.flatten_singleton, List.mem_singleton]
    exact (and_iff_left_of_imp fun same => same ▸ matching).symm
  · rename_i apart
    exact iff_of_false List.not_mem_nil fun both => apart (both.1 ▸ both.2)

theorem plain_of_right (right : ∀ inputs, Within channels inputs -> ∀ channelId ∈ channels, ∀ pages,
        ((machine ttl).after inputs).Scanned glob channelId pages ->
          (((machine ttl).after inputs).Right ttl channelId pages <-> pages.flatten.Nodup)) :
    Plain glob channels := by
  have answer : ∀ channelId ∈ channels, ∀ other ∈ channels,
      ∀ userId, ((machine ttl).after [.mark other userId]).Right ttl channelId
        (if glob (typingPattern channelId) (typingKey other userId) then
          [[typingKey other userId]] else []) := by
    intro channelId member other otherMember userId
    have within : Within channels [.mark other userId] := by
      intro marked markedUser inInputs
      cases List.mem_singleton.mp inInputs
      exact otherMember
    refine (right _ within channelId member _ scanned_after_mark).mpr ?_
    split
    · exact List.nodup_singleton _
    · exact List.nodup_nil
  have marks (channelId other : ChannelId) (userId : UserId) {shown : UserId} :
      ((machine ttl).after [.mark other userId]).Marked ttl channelId shown ->
        other = channelId ∧ userId = shown := by
    rintro ⟨mark, member, rfl, rfl, _⟩
    cases List.mem_singleton.mp member
    exact ⟨rfl, rfl⟩
  have own (channelId : ChannelId) (userId : UserId) :
      ((machine ttl).after [.mark channelId userId]).Marked ttl channelId userId := by
    refine ⟨_, List.mem_singleton_self _, rfl, rfl, ?_⟩
    rcases Nat.eq_zero_or_pos ttl with none_ | positive
    · exact .inl none_
    · exact .inr (Nat.lt_add_of_pos_right positive)
  have matches_ : ∀ channelId ∈ channels, ∀ other ∈ channels,
      ∀ userId, glob (typingPattern channelId) (typingKey other userId) = true ->
        other = channelId ∧ ':' ∉ other.toList := by
    intro channelId member other otherMember userId matching
    rcases answer channelId member other otherMember userId with ⟨users, answered, _, exact_⟩
    rw [if_pos matching, active_ok] at answered
    rcases typingUser_isSome other userId with ⟨shown, parts, faithful⟩
    have listed : shown ∈ users := by
      cases answered
      exact List.mem_filterMap.mpr ⟨_, List.mem_singleton_self _, parts⟩
    have same := marks channelId other userId ((exact_ shown).mp listed)
    exact ⟨same.1, faithful same.2.symm⟩
  have hits (channelId : ChannelId) (member : channelId ∈ channels) (userId : UserId) :
      glob (typingPattern channelId) (typingKey channelId userId) = true := by
    by_contra missed
    rcases answer channelId member channelId member userId with ⟨users, answered, _, exact_⟩
    rw [if_neg missed, active_ok] at answered
    cases answered
    exact List.not_mem_nil ((exact_ userId).mpr (own channelId userId))
  intro channelId member
  refine ⟨(matches_ channelId member channelId member "" (hits channelId member "")).2, ?_⟩
  intro other otherMember userId
  constructor
  · exact fun matching => (matches_ channelId member other otherMember userId matching).1
  · rintro rfl
    exact hits other member userId

/-- The channels whose identifiers are plain are those for which every answer is
right as long as the scan repeats no key. -/
theorem right_exactly (glob : String -> String -> Bool) (ttl : Nat) (channels : Set ChannelId) :
    (∀ inputs, Within channels inputs -> ∀ channelId ∈ channels,
      ∀ pages, ((machine ttl).after inputs).Scanned glob channelId pages ->
        (((machine ttl).after inputs).Right ttl channelId pages <-> pages.flatten.Nodup)) <->
      Plain glob channels := by
  constructor
  · exact plain_of_right
  · intro plain inputs within channelId member pages scanned
    have reached := traced_run ttl inputs within
    exact right_iff_nodup plain reached.1 reached.2 member scanned

/-- A pattern without glob characters but for its last star. -/
def startsLike (pattern key : String) : Bool :=
  pattern.toList.dropLast.isPrefixOf key.toList

theorem team_channel_misread : Not (∀ inputs channelId pages,
    ((machine 5).after inputs).Scanned startsLike channelId pages ->
      ((machine 5).after inputs).Right 5 channelId pages) := by
  intro claimed
  have answered := claimed [.mark "team:ops" "ann"] "team:ops" _ scanned_after_mark
  rcases answered with ⟨users, listed, _, exact_⟩
  rw [if_pos (by decide), active_ok] at listed
  have shown : users = ["ops:ann"] := by
    cases listed
    decide
  rcases (exact_ "ops:ann").mp (shown ▸ List.mem_singleton_self _) with ⟨mark, member, _, user, _⟩
  cases List.mem_singleton.mp member
  exact absurd user (by decide)

end Tracker
end Relay
end BreadMind
