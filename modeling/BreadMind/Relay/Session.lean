import BreadMind.Execution.SetMap
import Mathlib.Data.Finset.Dedup
import Mathlib.Data.Finset.Option
import Mathlib.Data.Finset.Union

namespace BreadMind
namespace Relay

open Execution

/-!
# Connections and subscriptions of the relay

The registry maps a connection identifier to the connection object, with a
second index by user.  The subscription index relates connections and
channels in both directions.  Both are keyed by the identifier, which is made
of the user and the starting time; a connection object is distinguished from
another one with the same identifier by its reference.
-/

abbrev ChannelId := String
abbrev UserId := String
abbrev WorkspaceId := String
abbrev ConnId := String

abbrev ConnRef := Nat

structure Conn where
  ref : ConnRef
  id : ConnId
  userId : UserId
  workspaceId : WorkspaceId
  deriving DecidableEq

/-- An order in which a loop over the set may visit it. -/
def Visits (order : List String) (values : Finset String) : Prop :=
  order.Nodup ∧ order.toFinset = values

instance (order : List String) (values : Finset String) : Decidable (Visits order values) :=
  inferInstanceAs (Decidable (_ ∧ _))

theorem Visits.mem {order : List String} {values : Finset String} (visits : Visits order values)
    (value : String) : value ∈ order <-> value ∈ values := by
  rw [← visits.2]
  exact List.mem_toFinset.symm

structure Registry where
  conns : ConnId -> Option Conn := fun _ => none
  byUser : SetMap UserId ConnId := fun _ => none

namespace Registry

variable (registry : Registry)

def add (conn : Conn) : Registry where
  conns := Function.update registry.conns conn.id (some conn)
  byUser :=
    if conn.userId = "" then registry.byUser else registry.byUser.add conn.userId conn.id

def remove (id : ConnId) : Registry where
  conns := Function.update registry.conns id none
  byUser :=
    match registry.conns id with
    | none => registry.byUser
    | some conn =>
      if conn.userId = "" then registry.byUser else registry.byUser.delete conn.userId id

def get (id : ConnId) : Option Conn :=
  registry.conns id

/-- The connections of a user.  The source's slice has them in map order. -/
def connsByUser (userId : UserId) : Finset Conn :=
  (registry.byUser.values userId).biUnion fun id => (registry.conns id).toFinset

variable {registry}

theorem get_of_add {key : ConnId} {conn other : Conn} (get : (registry.add conn).get key = some other) :
    (key = conn.id ∧ other = conn) ∨ registry.get key = some other := by
  by_cases here : key = conn.id
  · subst here
    have added : (registry.add conn).get conn.id = some conn := Function.update_self _ _ _
    cases added.symm.trans get
    exact .inl ⟨rfl, rfl⟩
  · exact .inr ((Function.update_of_ne here _ _).symm.trans get)

theorem get_of_remove {id key : ConnId} {conn : Conn} (get : (registry.remove id).get key = some conn) :
    key ≠ id ∧ registry.get key = some conn := by
  by_cases here : key = id
  · subst here
    have gone : (registry.remove key).get key = none := Function.update_self _ _ _
    cases gone.symm.trans get
  · exact ⟨here, (Function.update_of_ne here _ _).symm.trans get⟩

end Registry

/-! ## The subscription index -/

structure Subscription where
  chanToConns : SetMap ChannelId ConnId := fun _ => none
  connToChans : SetMap ConnId ChannelId := fun _ => none

namespace Subscription

def subscribe (subs : Subscription) (id : ConnId) (channel : ChannelId) : Subscription where
  chanToConns := subs.chanToConns.add channel id
  connToChans := subs.connToChans.add id channel

def unsubscribe (subs : Subscription) (id : ConnId) (channel : ChannelId) : Subscription where
  chanToConns := subs.chanToConns.delete channel id
  connToChans := subs.connToChans.delete id channel

def subscribers (subs : Subscription) (channel : ChannelId) : Finset ConnId :=
  subs.chanToConns.values channel

/-- The loop visits the channels of the connection, each of which it deletes
the connection from; no two visits touch the same entry. -/
def removeAll (subs : Subscription) (id : ConnId) : Subscription where
  chanToConns := fun channel =>
    if channel ∈ subs.connToChans.values id then
      SetMap.dropValue id (subs.chanToConns channel)
    else subs.chanToConns channel
  connToChans := Function.update subs.connToChans id none

/-- The two directions of the index agree. -/
def Coherent (subs : Subscription) : Prop :=
  ∀ id channel, id ∈ subs.subscribers channel <-> channel ∈ subs.connToChans.values id

theorem coherent_empty : Coherent {} := by
  intro id channel
  exact iff_of_false (Finset.notMem_empty id) (Finset.notMem_empty channel)

variable {subs : Subscription} {other : ConnId} {target : ChannelId}

theorem mem_subscribers_subscribe {id : ConnId} {channel : ChannelId} :
    other ∈ (subs.subscribe id channel).subscribers target <->
      other ∈ subs.subscribers target ∨ (target = channel ∧ other = id) :=
  SetMap.mem_values_add

theorem mem_subscribers_unsubscribe {id : ConnId} {channel : ChannelId} :
    other ∈ (subs.unsubscribe id channel).subscribers target <->
      other ∈ subs.subscribers target ∧ ¬ (target = channel ∧ other = id) :=
  SetMap.mem_values_delete

theorem mem_subscribers_removeAll (coherent : subs.Coherent) {id : ConnId} :
    other ∈ (subs.removeAll id).subscribers target <->
      other ∈ subs.subscribers target ∧ other ≠ id := by
  have entry : (subs.removeAll id).subscribers target =
      if target ∈ subs.connToChans.values id then (subs.subscribers target).erase id
      else subs.subscribers target := by
    change ((if target ∈ subs.connToChans.values id then
      SetMap.dropValue id (subs.chanToConns target)
      else subs.chanToConns target).getD ∅ : Finset ConnId) = _
    by_cases held : target ∈ subs.connToChans.values id
    · rw [if_pos held, if_pos held, SetMap.getD_dropValue]
      rfl
    · rw [if_neg held, if_neg held]
      rfl
  rw [entry]
  split
  · rw [Finset.mem_erase]
    exact and_comm
  · rename_i outside
    constructor
    · intro member
      refine ⟨member, ?_⟩
      intro same
      exact outside ((coherent id target).mp (same ▸ member))
    · exact And.left

theorem Coherent.subscribe (coherent : subs.Coherent) (id : ConnId)
    (channel : ChannelId) : (subs.subscribe id channel).Coherent := by
  intro other target
  rw [mem_subscribers_subscribe, coherent other target]
  change _ <-> target ∈ (subs.connToChans.add id channel).values other
  rw [SetMap.mem_values_add]
  tauto

theorem Coherent.unsubscribe (coherent : subs.Coherent) (id : ConnId)
    (channel : ChannelId) : (subs.unsubscribe id channel).Coherent := by
  intro other target
  rw [mem_subscribers_unsubscribe, coherent other target]
  change _ <-> target ∈ (subs.connToChans.delete id channel).values other
  rw [SetMap.mem_values_delete]
  tauto

theorem Coherent.removeAll (coherent : subs.Coherent) (id : ConnId) :
    (subs.removeAll id).Coherent := by
  intro other target
  rw [mem_subscribers_removeAll coherent, coherent other target]
  change _ <-> target ∈ SetMap.values (Function.update subs.connToChans id none) other
  unfold SetMap.values
  by_cases same : other = id
  · subst same
    rw [Function.update_self]
    constructor
    · rintro ⟨_, different⟩
      exact False.elim (different rfl)
    · intro impossible
      exact False.elim (Finset.notMem_empty target impossible)
  · rw [Function.update_of_ne same]
    exact and_iff_left same

end Subscription
end Relay
end BreadMind
