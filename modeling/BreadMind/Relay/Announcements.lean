import BreadMind.Relay.Deployment

namespace BreadMind
namespace Relay

open Messenger

/-!
# What announcements say

An announcement about a channel of a user replaces what his connections'
caches say about it: by the operation it names, or by the answer to a
refetch, of which nothing is known in advance.  So of several announcements
only the last one about the channel counts.
-/

namespace AclEvent

/-- What a cache will say about the channel when the event is handled; nothing
is known yet of a refetch. -/
def verdict (userId : UserId) (channel : ChannelId) : AclEvent -> Option (Option Bool)
  | .kindA person => if person = userId then some none else none
  | .kindB person target op =>
    if person = userId ∧ target = channel then some (some (op == .add)) else none

def concerns (event : AclEvent) (userId : UserId) (channel : ChannelId) : Bool :=
  (event.verdict userId channel).isSome

def misstates (event : AclEvent) (visible : Bool) : Bool :=
  match event with
  | .kindA _ => false
  | .kindB _ _ op => (op == .add) != visible

variable {event : AclEvent} {userId : UserId} {channel : ChannelId}

theorem concerns_eq_false :
    event.concerns userId channel = false <-> event.verdict userId channel = none :=
  Option.isSome_eq_false_iff.trans Option.isNone_iff_eq_none

theorem verdict_eq_some {value : Option Bool} (said : event.verdict userId channel = some value) :
    (event = .kindA userId ∧ value = none) ∨
      ∃ op, event = .kindB userId channel op ∧ value = some (op == .add) := by
  cases event with
  | kindA person =>
    change (if person = userId then some none else none) = some value at said
    split at said
    · rename_i same
      cases said
      exact .inl ⟨same ▸ rfl, rfl⟩
    · cases said
  | kindB person target op =>
    change (if person = userId ∧ target = channel then some (some (op == .add)) else none) =
      some value at said
    split at said
    · rename_i same
      cases said
      exact .inr ⟨op, same.1 ▸ same.2 ▸ rfl, rfl⟩
    · cases said

theorem concerns_kindA : (kindA userId).concerns userId channel = true := by
  change (if userId = userId then some none else none : Option (Option Bool)).isSome = true
  rw [if_pos rfl]
  rfl

theorem concerns_kindB {op : AclOp} : (kindB userId channel op).concerns userId channel = true := by
  change (if userId = userId ∧ channel = channel then some (some (op == .add)) else none).isSome = true
  rw [if_pos ⟨rfl, rfl⟩]
  rfl

theorem userId_of_concerns (about : event.concerns userId channel = true) :
    event.userId = userId := by
  rcases Option.isSome_iff_exists.mp about with ⟨value, said⟩
  rcases verdict_eq_some said with ⟨kind, _⟩ | ⟨op, kind, _⟩
  · exact kind ▸ rfl
  · exact kind ▸ rfl

end AclEvent

def foresee (userId : UserId) (channel : ChannelId) (entry : Option Bool) (events : List AclEvent) :
    Option Bool :=
  (events.filterMap (AclEvent.verdict userId channel)).getLast?.getD entry

/-- An entry, as far as it is known, is what is seen. -/
def Agrees (entry : Option Bool) (visible : Prop) : Prop :=
  ∀ value, entry = some value -> (value = true <-> visible)

section Foresee

variable {userId : UserId} {channel : ChannelId} {entry : Option Bool} {event : AclEvent}
  {events : List AclEvent} {visible : Prop}

theorem foresee_append (more : List AclEvent) : foresee userId channel entry (events ++ more) =
      foresee userId channel (foresee userId channel entry events) more := by
  unfold foresee
  rw [List.filterMap_append, List.getLast?_append]
  cases (more.filterMap (AclEvent.verdict userId channel)).getLast? <;> rfl

theorem foresee_singleton :
    foresee userId channel entry [event] = (event.verdict userId channel).getD entry := by
  unfold foresee
  cases said : event.verdict userId channel with
  | none => rw [List.filterMap_cons_none said, List.filterMap_nil]; rfl
  | some value => rw [List.filterMap_cons_some said, List.filterMap_nil]; rfl

theorem foresee_cons : foresee userId channel entry (event :: events) =
      foresee userId channel ((event.verdict userId channel).getD entry) events := by
  rw [← foresee_singleton]
  exact (foresee_append events : foresee userId channel entry ([event] ++ events) = _)

theorem foresee_cases (userId : UserId) (channel : ChannelId) (events : List AclEvent) :
    (∀ entry, foresee userId channel entry events = entry) ∨
      ∀ entry, foresee userId channel entry events = foresee userId channel none events := by
  unfold foresee
  cases (events.filterMap (AclEvent.verdict userId channel)).getLast? with
  | none => exact .inl fun _ => rfl
  | some value => exact .inr fun _ => rfl

theorem agrees_none : Agrees none visible :=
  fun _ impossible => by cases impossible

theorem agrees_decide [Decidable visible] : Agrees (some (decide visible)) visible := by
  intro value same
  cases same
  exact decide_eq_true_iff

theorem Agrees.forget (agrees : Agrees (foresee userId channel entry events) visible) :
    Agrees (foresee userId channel none events) visible := by
  rcases foresee_cases userId channel events with untouched | overridden
  · rw [untouched]
    exact agrees_none
  · exact overridden entry ▸ agrees

theorem Agrees.foresee (agrees : Agrees entry visible)
    (announced : Agrees (foresee userId channel none events) visible) :
    Agrees (foresee userId channel entry events) visible := by
  rcases foresee_cases userId channel events with untouched | overridden
  · rw [untouched]
    exact agrees
  · rw [overridden]
    exact announced

theorem Agrees.of_drop {count : Nat}
    (agrees : Agrees (Relay.foresee userId channel entry (events.drop count)) visible)
    (announced : Agrees (Relay.foresee userId channel none events) visible) :
    Agrees (Relay.foresee userId channel entry events) visible := by
  rw [← List.take_append_drop count events, foresee_append] at announced ⊢
  rcases foresee_cases userId channel (events.take count) with untouched | overridden
  · rw [untouched]
    exact agrees
  · rw [overridden]
    exact announced

end Foresee

theorem Change.mem_visibleChannels_iff {change : Change} {core after : Database}
    {workspaceId userId : UUID} {channel : ChannelId} (applied : change.apply core = some after)
    (apart : change.announcement.concerns userId.text channel = false) :
    channel ∈ visibleChannels after workspaceId userId <->
      channel ∈ visibleChannels core workspaceId userId := by
  simp only [mem_visibleChannels]
  refine exists_congr fun channelId => and_congr_left fun text => ?_
  subst text
  have membership : ∀ {target member : UUID} {op : AclOp},
      (AclEvent.kindB member.text target.text op).concerns userId.text channelId.text = false ->
        ¬ (channelId = target ∧ userId = member) := by
    rintro target member op unsaid ⟨rfl, rfl⟩
    rw [AclEvent.concerns_kindB] at unsaid
    cases unsaid
  have person : ∀ {member : UUID},
      (AclEvent.kindA member.text).concerns userId.text channelId.text = false -> userId ≠ member := by
    rintro member unsaid rfl
    rw [AclEvent.concerns_kindA] at unsaid
    cases unsaid
  cases change with
  | addMember target member => exact mem_queryVisibleChannels_addMember applied (membership apart)
  | removeMember target member =>
    cases applied
    exact mem_queryVisibleChannels_removeMember (membership apart)
  | updateUserRole home member role =>
    cases applied
    exact mem_queryVisibleChannels_updateUserRole (person apart)
  | deactivateUser home member now =>
    cases applied
    exact mem_queryVisibleChannels_deactivateUser (person apart)

end Relay
end BreadMind
