import BreadMind.Relay.Handler
import BreadMind.Relay.Typing

namespace BreadMind
namespace Relay

open Execution

/-!
# What a client message can touch

`handleClientMessage` is given here as the calls it makes, in their order.  What
it is told on the way comes from its surroundings: the cache as each channel of a
subscribe request is looked up in it, and the history which the core returns.
Between two calls other goroutines may do anything, so what a call does to a
channel is stated for every state it may be made in.
-/

variable {Body : Type}

inductive HandlerCall (Body : Type) where
  | send (frame : Frame Body)
  | backfillSince (workspaceId : WorkspaceId) (channelId : ChannelId) (since : Int) (limit : Nat)
  | subscribe (id : ConnId) (channelId : ChannelId)
  | unsubscribe (id : ConnId) (channelId : ChannelId)
  | mark (channelId : ChannelId) (userId : UserId)

abbrev Backfill (Body : Type) := WorkspaceId -> ChannelId -> Int -> Nat -> Option (List Body)

/-- What the handler finds: the cache at each look-up, the answers of the core for
each channel of the request, and whether there is a typing tracker. -/
structure Surroundings (Body : Type) where
  visible : Nat -> Cache
  backfill : Option (Nat -> Backfill Body)
  tracksTyping : Bool := true

namespace Surroundings

variable (around : Surroundings Body) (conn : Conn)

/-- The missed events of a channel that passed the gate. -/
def replay (index : Nat) (channel : ChannelId) (since : Int) : List (HandlerCall Body) :=
  match around.backfill with
  | none => []
  | some answer =>
    if 0 < since then
      .backfillSince conn.workspaceId channel since 500 ::
        ((answer index conn.workspaceId channel since 500).getD []).map fun event =>
          .send (.backfill channel event)
    else []

/-- The loop over the channels of a subscribe request. -/
def subscribeAll : Nat -> List (ChannelId × Int) -> List ChannelId -> List (HandlerCall Body)
  | _, [], accepted => [.send (.subscribed accepted)]
  | index, (channel, since) :: todo, accepted =>
    if channel ∈ around.visible index then
      around.replay conn index channel since ++
        .subscribe conn.id channel :: subscribeAll (index + 1) todo (accepted ++ [channel])
    else
      .send (.error "acl_denied" ("not a member of channel " ++ channel)) ::
        subscribeAll (index + 1) todo accepted

def handleClientMessage : ClientEnvelope -> List (HandlerCall Body)
  | .subscribe channelIds channelResume =>
    around.subscribeAll conn 0 (resumePairs channelIds channelResume) []
  | .unsubscribe channelIds => channelIds.map (.unsubscribe conn.id)
  | .ping => [.send .pong]
  | .typing channelId =>
    if channelId = "" then []
    else if around.tracksTyping then [.mark channelId conn.userId]
    else []
  | .other => []

end Surroundings

/-- The channels a frame tells something about. -/
def Frame.channels : Frame Body -> List ChannelId
  | .backfill channelId _ => [channelId]
  | .subscribed channelIds => channelIds
  | .revoked channelId _ => [channelId]
  | .granted channelId => [channelId]
  | .live payload => [payload.channelId]
  -- A refusal has the same text whether the channel exists or not.
  | .error _ _ => []
  | .pong => []

def HandlerCall.onSubs (subs : Subscription) : HandlerCall Body -> Subscription
  | .subscribe id channelId => subs.subscribe id channelId
  | .unsubscribe id channelId => subs.unsubscribe id channelId
  | _ => subs

def HandlerCall.onTracker (ttl : Nat) (tracker : Tracker) : HandlerCall Body -> Tracker
  | .mark channelId userId => tracker.mark ttl channelId userId
  | _ => tracker

/-- A mark which is read back for the channel. -/
def Shows (glob : String -> String -> Bool) (channel marked : ChannelId) (userId : UserId) : Prop :=
  glob (typingPattern channel) (typingKey marked userId) = true

/-- The call asks for nothing of the channel and says nothing about it, nobody
becomes a subscriber of it, the other subscribers stay, and no mark shows in it. -/
structure Apart (glob : String -> String -> Bool) (ttl : Nat) (conn : Conn) (channel : ChannelId)
    (call : HandlerCall Body) : Prop where
  noHistory : ∀ workspaceId since limit, call ≠ .backfillSince workspaceId channel since limit
  silent : ∀ frame, call = .send frame -> channel ∉ frame.channels
  noSubscriber : ∀ subs id, id ∈ (call.onSubs subs).subscribers channel ->
    id ∈ subs.subscribers channel
  others : ∀ subs id, id ≠ conn.id -> (id ∈ (call.onSubs subs).subscribers channel <->
    id ∈ subs.subscribers channel)
  noMark : ∀ marked userId, call = .mark marked userId -> Not (Shows glob channel marked userId)
  marks : ∀ tracker key, glob (typingPattern channel) key = true ->
    (call.onTracker ttl tracker).store.lookup key = tracker.store.lookup key

/-- Two surroundings which differ at most in what the core says of the channel. -/
structure Agree (channel : ChannelId) (around other : Surroundings Body) : Prop where
  visible : other.visible = around.visible
  tracks : other.tracksTyping = around.tracksTyping
  backfill : (around.backfill = none ∧ other.backfill = none) ∨
    ∃ first second, around.backfill = some first ∧
      other.backfill = some second ∧ ∀ index workspaceId asked since limit, asked ≠ channel ->
        second index workspaceId asked since limit = first index workspaceId asked since limit

/-- A message of the connection touches nothing of the channel and tells nothing of it. -/
structure Barred (glob : String -> String -> Bool) (ttl : Nat) (around : Surroundings Body)
    (conn : Conn) (channel : ChannelId) (envelope : ClientEnvelope) : Prop where
  apart : ∀ call ∈ around.handleClientMessage conn envelope,
    Apart glob ttl conn channel call
  blind : ∀ other, Agree channel around other ->
    other.handleClientMessage conn envelope = around.handleClientMessage conn envelope

/-- The envelope marks the user as typing where it shows in the channel. -/
def ClientEnvelope.TypesIn (glob : String -> String -> Bool) (around : Surroundings Body)
    (conn : Conn) (channel : ChannelId) : ClientEnvelope -> Prop
  | .typing marked => marked ≠ "" ∧ around.tracksTyping = true ∧
      Shows glob channel marked conn.userId
  | _ => False

variable {glob : String -> String -> Bool} {ttl : Nat} {conn : Conn} {channel : ChannelId}
  {around : Surroundings Body}

theorem apart_send {frame : Frame Body} (silent : channel ∉ frame.channels) :
    Apart glob ttl conn channel (.send frame) where
  noHistory _ _ _ := nofun
  silent _ same := by
    cases same
    exact silent
  noSubscriber _ _ member := member
  others _ _ _ := Iff.rfl
  noMark _ _ same := by cases same
  marks _ _ _ := rfl

variable {asked : ChannelId}

theorem apart_backfillSince (different : asked ≠ channel)
    (workspaceId : WorkspaceId) (since : Int) (limit : Nat) :
    Apart glob ttl conn channel (.backfillSince workspaceId asked since limit : HandlerCall Body) where
  noHistory _ _ _ same := by
    cases same
    exact different rfl
  silent _ same := by cases same
  noSubscriber _ _ member := member
  others _ _ _ := Iff.rfl
  noMark _ _ same := by cases same
  marks _ _ _ := rfl

theorem apart_subscribe (different : asked ≠ channel) (id : ConnId) :
    Apart glob ttl conn channel (.subscribe id asked : HandlerCall Body) := by
  have same (subs : Subscription) (other : ConnId) :
      other ∈ (subs.subscribe id asked).subscribers channel <-> other ∈ subs.subscribers channel :=
    Subscription.mem_subscribers_subscribe.trans
      (or_iff_left fun added => different added.1.symm)
  exact {
    noHistory := fun _ _ _ => nofun
    silent := fun _ same => by cases same
    noSubscriber := fun subs other member => (same subs other).mp member
    others := fun subs other _ => same subs other
    noMark := fun _ _ same => by cases same
    marks := fun _ _ _ => rfl }

theorem apart_unsubscribe (asked : ChannelId) :
    Apart glob ttl conn channel (.unsubscribe conn.id asked : HandlerCall Body) where
  noHistory _ _ _ := nofun
  silent _ same := by cases same
  noSubscriber _ _ member := (Subscription.mem_subscribers_unsubscribe.mp member).1
  others _ _ different := Subscription.mem_subscribers_unsubscribe.trans
    (and_iff_left fun taken => different taken.2)
  noMark _ _ same := by cases same
  marks _ _ _ := rfl

theorem apart_mark {marked : ChannelId} {userId : UserId}
    (hidden : Not (Shows glob channel marked userId)) :
    Apart glob ttl conn channel (.mark marked userId : HandlerCall Body) where
  noHistory _ _ _ := nofun
  silent _ same := by cases same
  noSubscriber _ _ member := member
  others _ _ _ := Iff.rfl
  noMark _ _ same := by
    cases same
    exact hidden
  marks tracker key shown := by
    refine Dict.lookup_set_of_ne _ (fun same => hidden ?_) _
    subst same
    exact shown

/-! ## The loop of a subscribe request -/

theorem apart_replay {index : Nat} (different : asked ≠ channel) (since : Int)
    {call : HandlerCall Body} (member : call ∈ around.replay conn index asked since) :
    Apart glob ttl conn channel call := by
  unfold Surroundings.replay at member
  split at member
  · cases member
  · split at member
    · rcases List.mem_cons.mp member with rfl | sent
      · exact apart_backfillSince different _ _ _
      · rcases List.mem_map.mp sent with ⟨event, _, rfl⟩
        exact apart_send fun told => different (List.mem_singleton.mp told).symm
    · cases member

theorem apart_subscribeAll (outside : ∀ index, channel ∉ around.visible index) (index : Nat)
    (todo : List (ChannelId × Int)) (accepted : List ChannelId) (unlisted : channel ∉ accepted)
    {call : HandlerCall Body} (member : call ∈ around.subscribeAll conn index todo accepted) :
    Apart glob ttl conn channel call := by
  induction todo generalizing index accepted with
  | nil =>
    cases List.mem_singleton.mp member
    exact apart_send unlisted
  | cons first todo ih =>
    unfold Surroundings.subscribeAll at member
    split at member
    · rename_i admitted
      have different : first.1 ≠ channel := fun same => outside index (same ▸ admitted)
      rcases List.mem_append.mp member with replayed | later
      · exact apart_replay different _ replayed
      · rcases List.mem_cons.mp later with rfl | rest
        · exact apart_subscribe different conn.id
        · refine ih (index + 1) _ (fun listed => ?_) rest
          rcases List.mem_append.mp listed with old | new
          · exact unlisted old
          · exact different (List.mem_singleton.mp new).symm
    · rcases List.mem_cons.mp member with rfl | rest
      · exact apart_send List.not_mem_nil
      · exact ih (index + 1) accepted unlisted rest

theorem replay_agree {other : Surroundings Body} (agree : Agree channel around other)
    (different : asked ≠ channel) (index : Nat) (since : Int) :
    other.replay conn index asked since = around.replay conn index asked since := by
  unfold Surroundings.replay
  rcases agree.backfill with ⟨none_, otherNone⟩ | ⟨first, second, answers, otherAnswers, same⟩
  · rw [none_, otherNone]
  · rw [answers, otherAnswers]
    dsimp only
    rw [same index conn.workspaceId asked since 500 different]

theorem subscribeAll_agree {other : Surroundings Body} (agree : Agree channel around other)
    (outside : ∀ index, channel ∉ around.visible index) (index : Nat)
    (todo : List (ChannelId × Int)) (accepted : List ChannelId) :
    other.subscribeAll conn index todo accepted = around.subscribeAll conn index todo accepted := by
  induction todo generalizing index accepted with
  | nil => rfl
  | cons first todo ih =>
    unfold Surroundings.subscribeAll
    rw [agree.visible, ih, ih]
    split
    · rename_i admitted
      rw [replay_agree agree fun same => outside index (same ▸ admitted)]
    · rfl

/-- A channel that is not in the cache is out of reach of every message, except
for a typing mark that shows in it. -/
theorem barred_exactly (glob : String -> String -> Bool) (ttl : Nat) (around : Surroundings Body)
    (conn : Conn) (channel : ChannelId) (envelope : ClientEnvelope)
    (outside : ∀ index, channel ∉ around.visible index) :
    Barred glob ttl around conn channel envelope <->
      Not (envelope.TypesIn glob around conn channel) := by
  constructor
  · rintro barred types
    cases envelope with
    | typing marked =>
      rcases types with ⟨named, tracks, shows⟩
      refine (barred.apart (.mark marked conn.userId) ?_).noMark _ _ rfl shows
      unfold Surroundings.handleClientMessage
      dsimp only
      rw [if_neg named, if_pos tracks]
      exact List.mem_singleton_self _
    | _ => exact types
  · intro untyped
    cases envelope with
    | subscribe channelIds channelResume =>
      exact ⟨fun call member => apart_subscribeAll outside 0 _ [] List.not_mem_nil member,
        fun other agree => subscribeAll_agree agree outside 0 _ []⟩
    | unsubscribe channelIds =>
      refine ⟨fun call member => ?_, fun _ _ => rfl⟩
      rcases List.mem_map.mp member with ⟨asked, _, rfl⟩
      exact apart_unsubscribe asked
    | ping =>
      refine ⟨fun call member => ?_, fun _ _ => rfl⟩
      cases List.mem_singleton.mp member
      exact apart_send List.not_mem_nil
    | typing marked =>
      refine ⟨fun call member => ?_, fun other agree => ?_⟩
      · unfold Surroundings.handleClientMessage at member
        dsimp only at member
        split at member
        · cases member
        · rename_i named
          split at member
          · rename_i tracks
            cases List.mem_singleton.mp member
            exact apart_mark fun shows => untyped ⟨named, tracks, shows⟩
          · cases member
      · unfold Surroundings.handleClientMessage
        dsimp only
        rw [agree.tracks]
    | other => exact ⟨fun call member => absurd member List.not_mem_nil, fun _ _ => rfl⟩

def seesNothing : Surroundings Unit where
  visible := fun _ => ∅
  backfill := some fun _ _ _ _ _ => some [()]

def annConn : Conn := { ref := 0, id := "ann:10:00", userId := "ann", workspaceId := "home" }

theorem barred_exactly_subscribe :
    Barred Tracker.startsLike 5 seesNothing annConn "board" (.subscribe ["board"] [7]) :=
  (barred_exactly Tracker.startsLike 5 seesNothing annConn "board" _
    (fun _ => Finset.notMem_empty _)).mpr not_false

/-- A typing envelope marks the user in a channel that it does not see. -/
theorem typing_ungated : Not (∀ (around : Surroundings Unit) conn channel envelope,
    (∀ index, channel ∉ around.visible index) ->
      Barred Tracker.startsLike 5 around conn channel envelope) := by
  intro claimed
  have barred := claimed seesNothing annConn "board" (.typing "board")
    (fun _ => Finset.notMem_empty _)
  refine (barred.apart (.mark "board" "ann") (List.mem_singleton_self _)).noMark _ _ rfl ?_
  unfold Shows
  decide

end Relay
end BreadMind
