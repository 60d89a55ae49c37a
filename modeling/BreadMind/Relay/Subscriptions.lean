import BreadMind.Execution.Machine
import BreadMind.Relay.Session
import Mathlib.Data.Set.Insert

namespace BreadMind
namespace Relay

open Execution

/-!
# The subscription index and its pairs

The index of subscriptions is two maps of sets.  What it stands for is one set
of pairs of a connection and a channel, on which the three mutators are plain
operations.  A loop over a Go map visits its keys in an order which is not
determined; here the order comes with the call.
-/

namespace Subscription

/-- `RemoveAll`, with the order of its loop. -/
def removeAllIn (subs : Subscription) (id : ConnId) (order : List ChannelId) : Subscription where
  chanToConns := order.foldl (fun index channel => index.delete channel id) subs.chanToConns
  connToChans := Function.update subs.connToChans id none

theorem removeAllIn_eq (subs : Subscription) {id : ConnId} {order : List ChannelId}
    (visits : Visits order (subs.connToChans.values id)) :
    subs.removeAllIn id order = subs.removeAll id := by
  unfold removeAllIn removeAll
  congr 1
  funext channel
  rw [SetMap.foldl_delete id visits.1]
  exact if_congr (visits.mem channel) rfl rfl

inductive Call where
  | subscribe (id : ConnId) (channel : ChannelId)
  | unsubscribe (id : ConnId) (channel : ChannelId)
  | removeAll (id : ConnId) (order : List ChannelId)

def call (subs : Subscription) : Call -> Subscription
  | .subscribe id channel => subs.subscribe id channel
  | .unsubscribe id channel => subs.unsubscribe id channel
  | .removeAll id order => subs.removeAllIn id order

abbrev Pairs := Set (ConnId × ChannelId)

def callPairs (pairs : Pairs) : Call -> Pairs
  | .subscribe id channel => insert (id, channel) pairs
  | .unsubscribe id channel => pairs \ {(id, channel)}
  | .removeAll id _ => {pair | pair ∈ pairs ∧ pair.1 ≠ id}

/-- The loop of the call can take the order it comes with. -/
def Possible (subs : Subscription) : Call -> Prop
  | .removeAll id order => Visits order (subs.connToChans.values id)
  | _ => True

instance (subs : Subscription) : (call : Call) -> Decidable (Possible subs call)
  | .removeAll id order => inferInstanceAs (Decidable (Visits order (subs.connToChans.values id)))
  | .subscribe _ _ => isTrue trivial
  | .unsubscribe _ _ => isTrue trivial

def noted : Machine (Subscription × Pairs) Call where
  initial := ({}, ∅)
  step := fun state input =>
    if Possible state.1 input then (state.1.call input, callPairs state.2 input) else state

/-- `Subscribers`, with the order of its loop. -/
def subscribersIn (subs : Subscription) (channel : ChannelId) (answer : List ConnId) : Prop :=
  Visits answer (subs.chanToConns.values channel)

structure Represents (subs : Subscription) (pairs : Pairs) : Prop where
  coherent : subs.Coherent
  chansTrim : SetMap.Trim subs.chanToConns
  connsTrim : SetMap.Trim subs.connToChans
  subscribers : ∀ channel answer, subs.subscribersIn channel answer ->
    answer.Nodup ∧ ∀ id, id ∈ answer <-> (id, channel) ∈ pairs

/-- Nothing of the connection is left, and everything of the others. -/
structure Gone (subs : Subscription) (id : ConnId) (after : Subscription) : Prop where
  noSubscriber : ∀ channel, id ∉ after.subscribers channel
  noEntry : after.connToChans id = none
  others : ∀ other ≠ id, after.connToChans other = subs.connToChans other ∧
    ∀ channel, other ∈ after.subscribers channel <-> other ∈ subs.subscribers channel

/-! ## What the calls keep -/

variable {subs : Subscription} {pairs : Pairs}

theorem represents_of_mem (coherent : subs.Coherent) (chansTrim : SetMap.Trim subs.chanToConns)
    (connsTrim : SetMap.Trim subs.connToChans)
    (same : ∀ id channel, id ∈ subs.subscribers channel <-> (id, channel) ∈ pairs) :
    Represents subs pairs where
  coherent := coherent
  chansTrim := chansTrim
  connsTrim := connsTrim
  subscribers channel _ visits := ⟨visits.1, fun id => (visits.mem id).trans (same id channel)⟩

theorem Represents.mem (represents : Represents subs pairs) (id : ConnId) (channel : ChannelId) :
    id ∈ subs.subscribers channel <-> (id, channel) ∈ pairs := by
  have visits : subs.subscribersIn channel (subs.chanToConns.values channel).toList :=
    ⟨Finset.nodup_toList _, Finset.toList_toFinset _⟩
  rw [← (represents.subscribers channel _ visits).2 id]
  exact Finset.mem_toList.symm

theorem trim_removeAll (chansTrim : SetMap.Trim subs.chanToConns)
    (connsTrim : SetMap.Trim subs.connToChans) (id : ConnId) (order : List ChannelId) :
    SetMap.Trim (subs.removeAllIn id order).chanToConns ∧
      SetMap.Trim (subs.removeAllIn id order).connToChans :=
  ⟨chansTrim.deleteEach id order, connsTrim.drop id⟩

theorem Represents.call (represents : Represents subs pairs) {input : Call}
    (possible : Possible subs input) : Represents (subs.call input) (callPairs pairs input) := by
  cases input with
  | subscribe id channel =>
    refine represents_of_mem (represents.coherent.subscribe id channel)
      (represents.chansTrim.add channel id) (represents.connsTrim.add id channel) ?_
    intro other target
    refine mem_subscribers_subscribe.trans ?_
    rw [represents.mem, or_comm]
    refine Iff.trans (or_congr_left ?_) Set.mem_insert_iff.symm
    rw [Prod.mk_inj, and_comm]
  | unsubscribe id channel =>
    refine represents_of_mem (represents.coherent.unsubscribe id channel)
      (represents.chansTrim.delete channel id) (represents.connsTrim.delete id channel) ?_
    intro other target
    refine mem_subscribers_unsubscribe.trans ?_
    rw [represents.mem]
    refine Iff.trans (and_congr_right fun _ => not_congr ?_) (Set.mem_sdiff _).symm
    rw [Set.mem_singleton_iff, Prod.mk_inj, and_comm]
  | removeAll id order =>
    have trims := trim_removeAll represents.chansTrim represents.connsTrim id order
    have whole := removeAllIn_eq subs possible
    refine represents_of_mem ?_ trims.1 trims.2 ?_
    · change (subs.removeAllIn id order).Coherent
      rw [whole]
      exact represents.coherent.removeAll id
    · intro other target
      change other ∈ (subs.removeAllIn id order).subscribers target <-> _
      rw [whole, mem_subscribers_removeAll represents.coherent, represents.mem]
      rfl

theorem Represents.gone (represents : Represents subs pairs) {id : ConnId}
    {order : List ChannelId} (visits : Visits order (subs.connToChans.values id)) :
    Gone subs id (subs.removeAllIn id order) := by
  rw [removeAllIn_eq subs visits]
  constructor
  · intro channel member
    exact ((mem_subscribers_removeAll represents.coherent).mp member).2 rfl
  · exact Function.update_self _ _ _
  · intro other different
    refine ⟨Function.update_of_ne different _ _, fun channel => ?_⟩
    exact (mem_subscribers_removeAll represents.coherent).trans (and_iff_left different)

end Subscription
end Relay
end BreadMind
