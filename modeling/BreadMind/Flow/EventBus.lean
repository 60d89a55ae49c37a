import BreadMind.Execution.Machine
import BreadMind.Flow.EventStore

namespace BreadMind
namespace Flow

open Execution
open Function (update update_apply update_of_ne update_self)

/-!
# The event bus

A call of `publish` appends its event, hands it to the subscribers of this
process and then, where there is a backplane, publishes it there.  Between
the three, other calls move.  A listener hands every message of the backplane
to the subscribers of this process, its own messages included.  Calls of
other processes append to the same store and reach this process through the
backplane only; which of the messages under way comes next is left open.

A subscriber is a queue under a name.  An event that finds the queue full
takes the subscriber out of the table of names.
-/

structure Subscription where
  subscriberId : String
  flowId : Option UUID
  userId : Option String
  eventTypes : Option (List EventType)
  queue : List StoredEvent := []
  yielded : List StoredEvent := []
  /-- The generator runs. -/
  isOpen : Bool := true
  /-- An event was refused because the queue was full. -/
  overflowed : Bool := false

namespace Subscription

def maxsize : Nat := 1000

def matchesEvent (sub : Subscription) (event : StoredEvent) : Bool :=
  if sub.flowId.any (fun flowId => decide (event.flowId ≠ flowId)) then false
  else if sub.eventTypes.any (fun types => decide (event.eventType ∉ types)) then false
  else
    match sub.userId, event.userId with
    | some user, some payloadUser => decide (payloadUser = user)
    | _, _ => true

def offer (sub : Subscription) (event : StoredEvent) : Subscription :=
  if sub.queue.length < maxsize then { sub with queue := sub.queue ++ [event] }
  else { sub with overflowed := true }

def received (sub : Subscription) : List StoredEvent :=
  sub.yielded ++ sub.queue

end Subscription

abbrev SubscriptionRef := Nat
abbrev PublishId := Nat

inductive PublishPhase where
  | appended
  /-- Handed to the subscribers of this process. -/
  | dispatched
  /-- Published on the backplane, and not yet read by the listener. -/
  | onWire
  | finished
  /-- A call of another process whose message was not published. -/
  | lost
  deriving DecidableEq

structure Publication where
  event : StoredEvent
  /-- The call was made in this process. -/
  here : Bool
  phase : PublishPhase

namespace Publication

/-- The event has still to be handed to the subscribers for the first time. -/
def Awaited (publication : Publication) : Prop :=
  publication.phase = .appended ∨ (publication.here = false ∧ publication.phase = .onWire)

/-- The event was handed to the subscribers. -/
def Arrived (publication : Publication) : Prop :=
  (publication.here = true ∧ publication.phase ≠ .appended) ∨
    (publication.here = false ∧ publication.phase = .finished)

end Publication

structure EventBus where
  store : FlowStore := fun _ => {}
  publications : PublishId -> Option Publication := fun _ => none
  /-- `_subscriptions`. -/
  registered : String -> Option SubscriptionRef := fun _ => none
  subscriptions : SubscriptionRef -> Option Subscription := fun _ => none

inductive BusInput where
  | subscribe (ref : SubscriptionRef) (subscriberId : String) (flowId : Option UUID)
      (userId : Option String) (eventTypes : Option (List EventType))
  | take (ref : SubscriptionRef)
  | close (ref : SubscriptionRef)
  | append (id : PublishId) (here : Bool) (event : StoreEvent) (now : Instant)
  | dispatch (id : PublishId)
  | send (id : PublishId) (sent : Bool)
  | listen (id : PublishId)

namespace EventBus

def Reaches (bus : EventBus) (ref : SubscriptionRef) (sub : Subscription) (event : StoredEvent) : Prop :=
  bus.registered sub.subscriberId = some ref ∧ sub.matchesEvent event = true

instance (bus : EventBus) (ref : SubscriptionRef) (sub : Subscription) (event : StoredEvent) :
    Decidable (bus.Reaches ref sub event) :=
  inferInstanceAs (Decidable (_ ∧ _))

def dispatchLocal (bus : EventBus) (event : StoredEvent) : EventBus :=
  { bus with
    subscriptions := fun ref => (bus.subscriptions ref).map fun sub =>
      if bus.Reaches ref sub event then sub.offer event else sub
    registered := fun subscriberId => (bus.registered subscriberId).filter fun ref =>
      match bus.subscriptions ref with
      | some sub => !(sub.matchesEvent event && decide (Subscription.maxsize ≤ sub.queue.length))
      | none => true }

def setPhase (bus : EventBus) (id : PublishId) (publication : Publication) (phase : PublishPhase) :
    EventBus :=
  { bus with
    publications := update bus.publications id (some { publication with phase }) }

def step (redis : Bool) (bus : EventBus) : BusInput -> EventBus
  | .subscribe ref subscriberId flowId userId eventTypes =>
    match bus.subscriptions ref with
    | none =>
      { bus with
        subscriptions := update bus.subscriptions ref
          (some { subscriberId, flowId, userId, eventTypes })
        registered := update bus.registered subscriberId (some ref) }
    | some _ => bus
  | .take ref =>
    match bus.subscriptions ref with
    | some sub =>
      match sub.isOpen, sub.queue with
      | true, event :: queue =>
        { bus with
          subscriptions := update bus.subscriptions ref
            (some { sub with queue, yielded := sub.yielded ++ [event] }) }
      | _, _ => bus
    | none => bus
  | .close ref =>
    match bus.subscriptions ref with
    | some sub =>
      if sub.isOpen then
        { bus with
          subscriptions := update bus.subscriptions ref (some { sub with isOpen := false })
          -- The entry of the name, whosever it is by now.
          registered := update bus.registered sub.subscriberId none }
      else bus
    | none => bus
  | .append id here event now =>
    match bus.publications id, bus.store.append event now with
    | none, .ok (stored, store) =>
      { bus with
        store
        publications := update bus.publications id
          (some { event := stored, here, phase := .appended }) }
    | _, _ => bus
  | .dispatch id =>
    match bus.publications id with
    | some publication =>
      match publication.here, publication.phase with
      | true, .appended => (bus.dispatchLocal publication.event).setPhase id publication .dispatched
      | _, _ => bus
    | none => bus
  | .send id sent =>
    match bus.publications id with
    | some publication =>
      match publication.here, publication.phase with
      | true, .dispatched =>
        bus.setPhase id publication (if redis && sent then .onWire else .finished)
      | false, .appended => bus.setPhase id publication (if redis && sent then .onWire else .lost)
      | _, _ => bus
    | none => bus
  | .listen id =>
    match bus.publications id with
    | some publication =>
      match publication.phase with
      | .onWire => (bus.dispatchLocal publication.event).setPhase id publication .finished
      | _ => bus
    | none => bus

end EventBus

def busMachine (redis : Bool) : Machine EventBus BusInput where
  initial := {}
  step := EventBus.step redis

/-- For each subscriber, the highest number of each flow when it subscribed. -/
abbrev Beginnings := SubscriptionRef -> UUID -> Nat

def noteBeginning (bus : EventBus) (input : BusInput) (since : Beginnings) : Beginnings :=
  match input with
  | .subscribe ref _ _ _ _ =>
    match bus.subscriptions ref with
    | none => update since ref fun flowId => (bus.store flowId).maxSeq
    | some _ => since
  | _ => since

def notedBus (redis : Bool) : Machine (EventBus × Beginnings) BusInput :=
  (busMachine redis).recording (fun _ _ => 0) noteBeginning

/-- A subscriber got matching events only, those of each flow in increasing
order and so none of them twice, and every one that was appended since it
subscribed and handed out. -/
structure Served (bus : EventBus) (since : UUID -> Nat) (sub : Subscription) : Prop where
  matching : ∀ event ∈ sub.received, sub.matchesEvent event = true
  increasing : sub.received.Pairwise fun earlier later =>
    earlier.flowId = later.flowId -> earlier.seq < later.seq
  complete : ∀ id publication, bus.publications id = some publication -> publication.Arrived ->
    sub.matchesEvent publication.event = true ->
      since publication.event.flowId < publication.event.seq -> publication.event ∈ sub.received

variable (current : EventBus × Beginnings)

def AllServed : Prop :=
  ∀ ref sub, current.1.subscriptions ref = some sub -> sub.isOpen = true ->
    sub.overflowed = false -> Served current.1 (current.2 ref) sub

/-- Some subscriber whose queue was never full receives the events. -/
def Watched (bus : EventBus) (events : List StoredEvent) : Prop :=
  ∃ ref sub, bus.subscriptions ref = some sub ∧ sub.isOpen = true ∧
    sub.overflowed = false ∧ ∀ event ∈ events, sub.matchesEvent event = true

/-- No event of the flow with a lower number is still to be handed to a
subscriber of both. -/
def InTurn (bus : EventBus) (publication : Publication) : Prop :=
  ∀ id other, bus.publications id = some other -> other.Awaited ->
    other.event.flowId = publication.event.flowId -> other.event.seq < publication.event.seq ->
      ¬ Watched bus [other.event, publication.event]

/-- Names are not used twice at a time, events are handed out in turn, and
what comes back from the backplane has no subscriber. -/
def HandsOutOnce : BusInput -> Prop
  | .subscribe _ subscriberId _ _ _ => ∀ ref sub, current.1.subscriptions ref = some sub ->
      sub.isOpen = true -> sub.subscriberId ≠ subscriberId
  | .dispatch id => ∀ publication, current.1.publications id = some publication ->
      publication.here = true -> publication.phase = .appended -> InTurn current.1 publication
  | .listen id => ∀ publication, current.1.publications id = some publication ->
      publication.phase = .onWire ->
        if publication.here then ¬ Watched current.1 [publication.event]
        else InTurn current.1 publication
  | _ => True

/-! ## Every subscriber stays served -/

structure Ready (bus : EventBus) (since : UUID -> Nat) (sub : Subscription) : Prop where
  served : Served bus since sub
  known : ∀ event ∈ sub.received, event.seq ≤ (bus.store event.flowId).maxSeq
  ahead : ∀ id publication, bus.publications id = some publication -> publication.Awaited ->
    sub.matchesEvent publication.event = true -> ∀ event ∈ sub.received,
      event.flowId = publication.event.flowId -> event.seq < publication.event.seq

structure BusSound : Prop where
  numbered : ∀ id publication, current.1.publications id = some publication ->
    publication.event.seq ≤ (current.1.store publication.event.flowId).maxSeq
  distinct : ∀ first second one other, current.1.publications first = some one ->
    current.1.publications second = some other -> one.event.flowId = other.event.flowId ->
      one.event.seq = other.event.seq -> first = second
  named : ∀ ref sub, current.1.subscriptions ref = some sub -> sub.isOpen = true ->
    sub.overflowed = false -> current.1.registered sub.subscriberId = some ref
  names : ∀ first second one other, current.1.subscriptions first = some one ->
    current.1.subscriptions second = some other -> one.isOpen = true -> other.isOpen = true ->
      one.subscriberId = other.subscriberId -> first = second
  ready : ∀ ref sub, current.1.subscriptions ref = some sub -> sub.isOpen = true ->
    sub.overflowed = false -> Ready current.1 (current.2 ref) sub

variable {bus : EventBus} {since : UUID -> Nat} {begins : Beginnings} {sub : Subscription}

theorem EventBus.setPhase_publications (id other : PublishId) (publication : Publication)
    (phase : PublishPhase) : (bus.setPhase id publication phase).publications other =
      if other = id then some { publication with phase } else bus.publications other :=
  update_apply _ _ _ _

variable {publication : Publication} {phase : PublishPhase}

theorem publication_before {id other : PublishId} {next : Publication}
    (after : (bus.setPhase id publication phase).publications other = some next) :
    (other = id ∧ next = { publication with phase }) ∨
      (other ≠ id ∧ bus.publications other = some next) := by
  rw [EventBus.setPhase_publications] at after
  by_cases here : other = id
  · rw [if_pos here] at after
    exact .inl ⟨here, (Option.some_inj.mp after).symm⟩
  · rw [if_neg here] at after
    exact .inr ⟨here, after⟩

theorem Ready.setPhase (ready : Ready bus since sub) {id : PublishId}
    (current : bus.publications id = some publication)
    (arrived : ({ publication with phase } : Publication).Arrived -> publication.Arrived ∨
      sub.matchesEvent publication.event = false)
    (awaited : ({ publication with phase } : Publication).Awaited -> publication.Awaited) :
    Ready (bus.setPhase id publication phase) since sub where
  served := by
    refine ⟨ready.served.matching, ready.served.increasing, ?_⟩
    intro other next after arrives passes late
    rcases publication_before after with ⟨_, same⟩ | ⟨_, before⟩
    · subst same
      rcases arrived arrives with earlier | other
      · exact ready.served.complete id publication current earlier passes late
      · rw [other] at passes
        cases passes
    · exact ready.served.complete other next before arrives passes late
  known := ready.known
  ahead := by
    intro other next after waits passes
    rcases publication_before after with ⟨_, same⟩ | ⟨_, before⟩
    · subst same
      exact ready.ahead id publication current (awaited waits) passes
    · exact ready.ahead other next before waits passes

theorem Ready.receive (ready : Ready bus since sub) {id : PublishId}
    (current : bus.publications id = some publication)
    (waits : publication.Awaited) (handed : ¬ ({ publication with phase } : Publication).Awaited)
    (numbered : publication.event.seq ≤ (bus.store publication.event.flowId).maxSeq)
    (passes : sub.matchesEvent publication.event = true)
    (turn : ∀ other next, other ≠ id -> bus.publications other = some next -> next.Awaited ->
      next.event.flowId = publication.event.flowId -> sub.matchesEvent next.event = true ->
        publication.event.seq < next.event.seq) : Ready (bus.setPhase id publication phase) since
      { sub with queue := sub.queue ++ [publication.event] } := by
  have received : ({ sub with queue := sub.queue ++ [publication.event] } : Subscription).received =
      sub.received ++ [publication.event] := (List.append_assoc _ _ _).symm
  have member : ∀ event ∈ sub.received ++ [publication.event],
      event ∈ sub.received ∨ event = publication.event := by
    intro event listed
    exact (List.mem_append.mp listed).imp_right List.mem_singleton.mp
  refine ⟨⟨?_, ?_, ?_⟩, ?_, ?_⟩
  · intro event listed
    rw [received] at listed
    rcases member event listed with old | new
    · exact ready.served.matching event old
    · exact new ▸ passes
  · rw [received]
    refine List.pairwise_append.mpr ⟨ready.served.increasing, List.pairwise_singleton _ _, ?_⟩
    intro earlier old later new
    rw [List.mem_singleton.mp new]
    exact ready.ahead id publication current waits passes earlier old
  · intro other next after arrives accepts late
    rw [received]
    rcases publication_before after with ⟨_, same⟩ | ⟨_, before⟩
    · subst same
      exact List.mem_append_right _ List.mem_cons_self
    · exact List.mem_append_left _ (ready.served.complete other next before arrives accepts late)
  · intro event listed
    rw [received] at listed
    rcases member event listed with old | new
    · exact ready.known event old
    · exact new ▸ numbered
  · intro other next after awaited accepts event listed same
    rw [received] at listed
    rcases publication_before after with ⟨_, here⟩ | ⟨apart, before⟩
    · exact absurd awaited (here ▸ handed)
    · rcases member event listed with old | new
      · exact ready.ahead other next before awaited accepts event old same
      · rw [new] at same ⊢
        exact turn other next apart before awaited same.symm accepts

theorem Ready.append (ready : Ready bus since sub) {id : PublishId}
    {store : FlowStore} (unarrived : ¬ publication.Arrived)
    (more : ∀ flowId, (bus.store flowId).maxSeq ≤ (store flowId).maxSeq)
    (next : publication.event.seq = (bus.store publication.event.flowId).maxSeq + 1) :
    Ready { bus with
      store
      publications := update bus.publications id (some publication) } since sub := by
  have before : ∀ other entry,
      update bus.publications id (some publication) other = some entry ->
        entry = publication ∨ bus.publications other = some entry := by
    intro other entry after
    rw [update_apply] at after
    split at after
    · exact .inl (Option.some_inj.mp after).symm
    · exact .inr after
  refine ⟨⟨ready.served.matching, ready.served.increasing, ?_⟩, ?_, ?_⟩
  · intro other entry after arrives
    rcases before other entry after with new | old
    · exact absurd arrives (new ▸ unarrived)
    · exact ready.served.complete other entry old arrives
  · intro event listed
    exact Nat.le_trans (ready.known event listed) (more event.flowId)
  · intro other entry after waits passes event listed same
    rcases before other entry after with new | old
    · rw [new, next, ← (new ▸ same : event.flowId = publication.event.flowId)]
      exact Nat.lt_succ_of_le (ready.known event listed)
    · exact ready.ahead other entry old waits passes event listed same

theorem Ready.dispatchLocal (ready : Ready bus since sub) (event : StoredEvent) :
    Ready (bus.dispatchLocal event) since sub :=
  ⟨⟨ready.served.matching, ready.served.increasing, ready.served.complete⟩, ready.known, ready.ahead⟩

variable {event : StoredEvent} {ref : SubscriptionRef} {after : Subscription}

theorem dispatchLocal_subscription
    (current : (bus.dispatchLocal event).subscriptions ref = some after) :
    ∃ sub, bus.subscriptions ref = some sub ∧
      after = if bus.Reaches ref sub event then sub.offer event else sub := by
  rcases Option.map_eq_some_iff.mp current with ⟨sub, before, same⟩
  exact ⟨sub, before, same.symm⟩

theorem offer_subscriberId (sub : Subscription) (event : StoredEvent) :
    (sub.offer event).subscriberId = sub.subscriberId := by
  unfold Subscription.offer
  split <;> rfl

theorem offer_isOpen (sub : Subscription) (event : StoredEvent) :
    (sub.offer event).isOpen = sub.isOpen := by
  unfold Subscription.offer
  split <;> rfl

theorem offer_fits (fits : (sub.offer event).overflowed = false) :
    sub.queue.length < Subscription.maxsize ∧ sub.overflowed = false ∧
      sub.offer event = { sub with queue := sub.queue ++ [event] } := by
  unfold Subscription.offer at fits ⊢
  split at fits
  · rename_i room
    exact ⟨room, fits, if_pos room⟩
  · cases fits

structure Hands (bus : EventBus) (event : StoredEvent) (ref : SubscriptionRef)
    (sub after : Subscription) : Prop where
  before : bus.subscriptions ref = some sub
  name : after.subscriberId = sub.subscriberId
  isOpen : after.isOpen = sub.isOpen
  fits : after.overflowed = false -> sub.overflowed = false ∧
    (bus.Reaches ref sub event -> sub.queue.length < Subscription.maxsize ∧
      after = { sub with queue := sub.queue ++ [event] }) ∧
    (¬ bus.Reaches ref sub event -> after = sub)

theorem hands (current : (bus.dispatchLocal event).subscriptions ref = some after) :
    ∃ sub, Hands bus event ref sub after := by
  rcases dispatchLocal_subscription current with ⟨sub, before, same⟩
  refine ⟨sub, before, ?_, ?_, ?_⟩
  · rw [same]
    split
    · exact offer_subscriberId sub event
    · rfl
  · rw [same]
    split
    · exact offer_isOpen sub event
    · rfl
  · intro fits
    by_cases reached : bus.Reaches ref sub event
    · rw [if_pos reached] at same
      rw [same] at fits
      have room := offer_fits fits
      exact ⟨room.2.1, fun _ => ⟨room.1, same.trans room.2.2⟩, fun missed => absurd reached missed⟩
    · rw [if_neg reached] at same
      exact ⟨same ▸ fits, fun reaches => absurd reaches reached, fun _ => same⟩

theorem distinct_setPhase {id : PublishId} {publication : Publication} {phase : PublishPhase}
    (current : bus.publications id = some publication) {other : PublishId} {next : Publication}
    (after : (bus.setPhase id publication phase).publications other = some next) :
    ∃ before, bus.publications other = some before ∧ before.event = next.event := by
  rcases publication_before after with ⟨here, same⟩ | ⟨_, before⟩
  · exact ⟨publication, here ▸ current, by rw [same]⟩
  · exact ⟨next, before, rfl⟩

theorem BusSound.setPhase (sound : BusSound (bus, begins)) {id : PublishId}
    (current : bus.publications id = some publication)
    (arrived : ({ publication with phase } : Publication).Arrived -> publication.Arrived)
    (awaited : ({ publication with phase } : Publication).Awaited -> publication.Awaited) :
    BusSound (bus.setPhase id publication phase, begins) where
  numbered := by
    intro other next after
    rcases distinct_setPhase current after with ⟨before, present, same⟩
    exact same ▸ sound.numbered other before present
  distinct := by
    intro first second one other firstAfter secondAfter flow seq
    rcases distinct_setPhase current firstAfter with ⟨firstBefore, firstPresent, firstSame⟩
    rcases distinct_setPhase current secondAfter with ⟨secondBefore, secondPresent, secondSame⟩
    refine sound.distinct first second _ _ firstPresent secondPresent ?_ ?_
    · rw [firstSame, secondSame]
      exact flow
    · rw [firstSame, secondSame]
      exact seq
  named := sound.named
  names := sound.names
  ready := fun ref sub present open_ fits =>
    (sound.ready ref sub present open_ fits).setPhase current (fun handed => .inl (arrived handed))
      awaited

theorem BusSound.handOut (sound : BusSound (bus, begins)) {id : PublishId}
    (current : bus.publications id = some publication)
    (handed : ¬ ({ publication with phase } : Publication).Awaited)
    (turn : ∀ ref sub, bus.subscriptions ref = some sub -> sub.isOpen = true ->
      sub.overflowed = false -> sub.matchesEvent publication.event = true -> publication.Awaited ∧
        InTurn bus publication) :
    BusSound ((bus.dispatchLocal publication.event).setPhase id publication phase, begins) := by
  have going : ∀ other next,
      ((bus.dispatchLocal publication.event).setPhase id publication phase).publications other =
        some next -> ∃ before, bus.publications other = some before ∧
          before.event = next.event :=
    fun other next after =>
      @distinct_setPhase (bus.dispatchLocal publication.event) _ _ _ current _ _ after
  constructor
  · intro other next after
    rcases going other next after with ⟨before, present, same⟩
    exact same ▸ sound.numbered other before present
  · intro first second one other firstAfter secondAfter flow seq
    rcases going first one firstAfter with ⟨firstBefore, firstPresent, firstSame⟩
    rcases going second other secondAfter with ⟨secondBefore, secondPresent, secondSame⟩
    refine sound.distinct first second _ _ firstPresent secondPresent ?_ ?_
    · rw [firstSame, secondSame]
      exact flow
    · rw [firstSame, secondSame]
      exact seq
  · intro ref after present open_ fits
    rcases hands present with ⟨sub, given⟩
    have kept := given.fits fits
    have registered : bus.registered sub.subscriberId = some ref :=
      sound.named ref sub given.before (given.isOpen ▸ open_) kept.1
    change (bus.registered after.subscriberId).filter _ = some ref
    rw [given.name, registered, Option.filter_some, given.before, if_pos]
    by_cases passes : sub.matchesEvent publication.event = true
    · have room := (kept.2.1 ⟨registered, passes⟩).1
      dsimp only
      rw [decide_eq_false (Nat.not_le_of_lt room), Bool.and_false]
      rfl
    · dsimp only
      rw [Bool.eq_false_of_not_eq_true passes]
      rfl
  · intro first second one other firstPresent secondPresent firstOpen secondOpen same
    rcases hands firstPresent with ⟨firstBefore, firstGiven⟩
    rcases hands secondPresent with ⟨secondBefore, secondGiven⟩
    refine sound.names first second _ _ firstGiven.before secondGiven.before ?_ ?_ ?_
    · exact firstGiven.isOpen ▸ firstOpen
    · exact secondGiven.isOpen ▸ secondOpen
    · rw [← firstGiven.name, ← secondGiven.name]
      exact same
  · intro ref after present open_ fits
    rcases hands present with ⟨sub, given⟩
    have kept := given.fits fits
    have opened : sub.isOpen = true := given.isOpen ▸ open_
    have ready := (sound.ready ref sub given.before opened kept.1).dispatchLocal publication.event
    by_cases passes : sub.matchesEvent publication.event = true
    · have registered := sound.named ref sub given.before opened kept.1
      have turns := turn ref sub given.before opened kept.1 passes
      rw [(kept.2.1 ⟨registered, passes⟩).2]
      refine ready.receive current turns.1 handed (sound.numbered id publication current) passes ?_
      intro other next apart there waits flow accepts
      have notEarlier : ¬ next.event.seq < publication.event.seq := by
        intro earlier
        refine turns.2 other next there waits flow earlier ⟨ref, sub, given.before, opened, kept.1, ?_⟩
        intro event listed
        rcases List.mem_cons.mp listed with first | rest
        · exact first ▸ accepts
        · exact List.mem_singleton.mp rest ▸ passes
      refine Nat.lt_of_le_of_ne (Nat.le_of_not_lt notEarlier) ?_
      intro same
      exact apart (sound.distinct other id next publication there current flow same.symm)
    · rw [kept.2.2 (fun reaches => passes reaches.2)]
      exact ready.setPhase current (fun _ => .inr (Bool.eq_false_of_not_eq_true passes))
        (fun waits => absurd waits handed)

theorem ready_new (sound : BusSound (bus, begins)) (subscriberId : String) (flowId : Option UUID)
    (userId : Option String) (eventTypes : Option (List EventType)) :
    Ready bus (fun flow => (bus.store flow).maxSeq) { subscriberId, flowId, userId, eventTypes } where
  served := by
    refine ⟨?_, List.Pairwise.nil, ?_⟩
    · intro event listed
      cases listed
    · intro id publication current _ _ late
      exact absurd (sound.numbered id publication current) (Nat.not_le_of_lt late)
  known := by
    intro event listed
    cases listed
  ahead := by
    intro id publication _ _ _ event listed
    cases listed

variable {redis : Bool}

theorem sound_subscribe (sound : BusSound (bus, begins)) (ref : SubscriptionRef)
    (subscriberId : String) (flowId : Option UUID) (userId : Option String)
    (eventTypes : Option (List EventType))
    (free : ∀ ref sub, bus.subscriptions ref = some sub -> sub.isOpen = true ->
      sub.subscriberId ≠ subscriberId) :
    BusSound (bus.step redis (.subscribe ref subscriberId flowId userId eventTypes),
      noteBeginning bus (.subscribe ref subscriberId flowId userId eventTypes) begins) := by
  unfold EventBus.step noteBeginning
  dsimp only
  cases vacant : bus.subscriptions ref with
  | some sub => exact sound
  | none =>
    let new : Subscription := { subscriberId, flowId, userId, eventTypes }
    have known : ∀ other after,
        update bus.subscriptions ref (some new) other = some after ->
          (other = ref ∧ after = new) ∨ (other ≠ ref ∧ bus.subscriptions other = some after) := by
      intro other after present
      rw [update_apply] at present
      by_cases here : other = ref
      · rw [if_pos here] at present
        exact .inl ⟨here, (Option.some_inj.mp present).symm⟩
      · rw [if_neg here] at present
        exact .inr ⟨here, present⟩
    constructor
    · exact sound.numbered
    · exact sound.distinct
    · intro other after present open_ fits
      change update bus.registered subscriberId (some ref) after.subscriberId = some other
      rcases known other after present with ⟨here, same⟩ | ⟨_, before⟩
      · rw [same, here]
        exact update_self _ _ _
      · rw [update_of_ne (free other after before open_)]
        exact sound.named other after before open_ fits
    · intro first second one other firstPresent secondPresent firstOpen secondOpen same
      rcases known first one firstPresent with ⟨firstHere, firstNew⟩ | ⟨_, firstBefore⟩
      · rcases known second other secondPresent with ⟨secondHere, _⟩ | ⟨_, secondBefore⟩
        · exact firstHere.trans secondHere.symm
        · rw [firstNew] at same
          exact absurd same.symm (free second other secondBefore secondOpen)
      · rcases known second other secondPresent with ⟨_, secondNew⟩ | ⟨_, secondBefore⟩
        · rw [secondNew] at same
          exact absurd same (free first one firstBefore firstOpen)
        · exact sound.names first second one other firstBefore secondBefore firstOpen secondOpen same
    · intro other after present open_ fits
      rcases known other after present with ⟨here, same⟩ | ⟨apart, before⟩
      · have began := ready_new sound subscriberId flowId userId eventTypes
        rw [here, same]
        change Ready _ (update begins ref _ ref) _
        rw [update_self]
        exact ⟨⟨began.served.matching, began.served.increasing, began.served.complete⟩, began.known,
          began.ahead⟩
      · have ready := sound.ready other after before open_ fits
        change Ready _ (update begins ref _ other) _
        rw [update_of_ne apart]
        exact ⟨⟨ready.served.matching, ready.served.increasing, ready.served.complete⟩, ready.known,
          ready.ahead⟩

theorem Ready.of_received (ready : Ready bus since sub) (received : after.received = sub.received)
    (filter : ∀ event, after.matchesEvent event = sub.matchesEvent event) :
    Ready bus since after := by
  refine ⟨⟨?_, ?_, ?_⟩, ?_, ?_⟩
  · intro event listed
    rw [filter]
    exact ready.served.matching event (received ▸ listed)
  · exact received ▸ ready.served.increasing
  · intro id publication current arrived passes late
    rw [received]
    exact ready.served.complete id publication current arrived (filter _ ▸ passes) late
  · exact received ▸ ready.known
  · intro id publication current waits passes event listed
    exact ready.ahead id publication current waits (filter _ ▸ passes) event (received ▸ listed)

theorem BusSound.replace (sound : BusSound (bus, begins))
    (current : bus.subscriptions ref = some sub) (name : after.subscriberId = sub.subscriberId)
    (opened : after.isOpen = true -> sub.isOpen = true)
    (fitted : after.overflowed = false -> sub.overflowed = false)
    (ready : ∀ since, Ready bus since sub -> Ready bus since after) :
    BusSound ({ bus with subscriptions := update bus.subscriptions ref (some after) }, begins) := by
  have known : ∀ other next,
      update bus.subscriptions ref (some after) other = some next ->
        ∃ before, bus.subscriptions other = some before ∧
          next.subscriberId = before.subscriberId ∧
          (next.isOpen = true -> before.isOpen = true) ∧
          (next.overflowed = false -> before.overflowed = false) ∧
          ∀ since, Ready bus since before -> Ready bus since next := by
    intro other next present
    rw [update_apply] at present
    by_cases here : other = ref
    · rw [if_pos here] at present
      cases present
      exact ⟨sub, here ▸ current, name, opened, fitted, ready⟩
    · rw [if_neg here] at present
      exact ⟨next, present, rfl, id, id, fun _ same => same⟩
  constructor
  · exact sound.numbered
  · exact sound.distinct
  · intro other next present open_ fits
    rcases known other next present with ⟨before, there, named, wasOpen, hadRoom, _⟩
    rw [named]
    exact sound.named other before there (wasOpen open_) (hadRoom fits)
  · intro first second one other firstPresent secondPresent firstOpen secondOpen same
    rcases known first one firstPresent with ⟨firstBefore, firstThere, firstName, firstWas, _⟩
    rcases known second other secondPresent with ⟨secondBefore, secondThere, secondName, secondWas, _⟩
    refine sound.names first second _ _ firstThere secondThere (firstWas firstOpen)
      (secondWas secondOpen) ?_
    rw [← firstName, ← secondName]
    exact same
  · intro other next present open_ fits
    rcases known other next present with ⟨before, there, _, wasOpen, hadRoom, kept⟩
    have served := kept _ (sound.ready other before there (wasOpen open_) (hadRoom fits))
    exact ⟨⟨served.served.matching, served.served.increasing, served.served.complete⟩, served.known,
      served.ahead⟩

theorem BusSound.unregister (sound : BusSound (bus, begins)) {subscriberId : String}
    (unused : ∀ ref sub, bus.subscriptions ref = some sub -> sub.isOpen = true ->
      sub.subscriberId ≠ subscriberId) :
    BusSound ({ bus with registered := update bus.registered subscriberId none }, begins) where
  numbered := sound.numbered
  distinct := sound.distinct
  names := sound.names
  named := by
    intro ref sub present open_ fits
    change update bus.registered subscriberId none sub.subscriberId = some ref
    rw [update_of_ne (unused ref sub present open_)]
    exact sound.named ref sub present open_ fits
  ready := by
    intro ref sub present open_ fits
    have ready := sound.ready ref sub present open_ fits
    exact ⟨⟨ready.served.matching, ready.served.increasing, ready.served.complete⟩, ready.known,
      ready.ahead⟩

theorem sound_take (sound : BusSound (bus, begins)) (ref : SubscriptionRef) :
    BusSound (bus.step redis (.take ref), begins) := by
  unfold EventBus.step
  dsimp only
  cases current : bus.subscriptions ref with
  | none => exact sound
  | some sub =>
    dsimp only
    split
    · rename_i event queue opened waiting
      refine sound.replace current rfl id id ?_
      intro since ready
      refine ready.of_received ?_ (fun _ => rfl)
      change sub.yielded ++ [event] ++ queue = sub.yielded ++ sub.queue
      rw [waiting, List.append_assoc]
      rfl
    · exact sound

theorem sound_close (sound : BusSound (bus, begins)) (ref : SubscriptionRef) :
    BusSound (bus.step redis (.close ref), begins) := by
  unfold EventBus.step
  dsimp only
  cases current : bus.subscriptions ref with
  | none => exact sound
  | some sub =>
    dsimp only
    split
    · rename_i opened
      have closed : BusSound ({ bus with
          subscriptions := update bus.subscriptions ref
            (some { sub with isOpen := false }) }, begins) :=
        sound.replace current rfl nofun id fun since ready => ready.of_received rfl fun _ => rfl
      refine closed.unregister ?_
      intro other next present open_ same
      change update bus.subscriptions ref _ other = some next at present
      rw [update_apply] at present
      split at present
      · cases present
        cases open_
      · rename_i apart
        exact apart (sound.names other ref next sub present current open_ opened same)
    · exact sound

theorem sound_append (sound : BusSound (bus, begins)) (id : PublishId) (here : Bool)
    (event : StoreEvent) (now : Instant) :
    BusSound (bus.step redis (.append id here event now), begins) := by
  unfold EventBus.step
  dsimp only
  cases vacant : bus.publications id with
  | some publication => exact sound
  | none =>
    cases appended : bus.store.append event now with
    | error failure => exact sound
    | ok result =>
      rcases result with ⟨stored, store⟩
      rcases FlowStore.append_eq_ok appended with ⟨record, one, rest⟩
      rcases FlowRecord.append_eq_ok one with ⟨built, projected, _, logged⟩
      have flow : stored.flowId = event.flowId := congrArg (fun stored => stored.flowId) built
      have number : stored.seq = (bus.store event.flowId).maxSeq + 1 :=
        congrArg StoredEvent.seq built
      have higher : record.maxSeq = (bus.store event.flowId).maxSeq + 1 := by
        refine FlowRecord.maxSeq_appended ?_ number
        rw [logged]
      have more : ∀ flowId, (bus.store flowId).maxSeq ≤ (store flowId).maxSeq := by
        intro flowId
        rw [rest, update_apply]
        split
        · rename_i same
          rw [same, higher]
          exact Nat.le_succ _
        · exact Nat.le_refl _
      have before : ∀ other entry,
          update bus.publications id (some { event := stored, here, phase := .appended })
            other = some entry ->
          (other = id ∧ entry = { event := stored, here, phase := .appended }) ∨
            (other ≠ id ∧ bus.publications other = some entry) := by
        intro other entry after
        rw [update_apply] at after
        by_cases same : other = id
        · rw [if_pos same] at after
          exact .inl ⟨same, (Option.some_inj.mp after).symm⟩
        · rw [if_neg same] at after
          exact .inr ⟨same, after⟩
      -- An old event of the flow has a lower number than the new one.
      have lower : ∀ other entry, bus.publications other = some entry ->
          entry.event.flowId = stored.flowId -> entry.event.seq < stored.seq := by
        intro other entry old same
        rw [number, ← flow, ← same]
        exact Nat.lt_succ_of_le (sound.numbered other entry old)
      constructor
      · intro other entry after
        rcases before other entry after with ⟨_, new⟩ | ⟨_, old⟩
        · rw [new]
          change stored.seq ≤ (store stored.flowId).maxSeq
          rw [rest, flow, update_self, higher, number]
        · exact Nat.le_trans (sound.numbered other entry old) (more _)
      · intro first second one other firstAfter secondAfter sameFlow sameSeq
        rcases before first one firstAfter with ⟨firstHere, firstNew⟩ | ⟨_, firstOld⟩
        · rcases before second other secondAfter with ⟨secondHere, _⟩ | ⟨_, secondOld⟩
          · exact firstHere.trans secondHere.symm
          · rw [firstNew] at sameFlow sameSeq
            exact absurd sameSeq.symm (Nat.ne_of_lt (lower second other secondOld sameFlow.symm))
        · rcases before second other secondAfter with ⟨_, secondNew⟩ | ⟨_, secondOld⟩
          · rw [secondNew] at sameFlow sameSeq
            exact absurd sameSeq (Nat.ne_of_lt (lower first one firstOld sameFlow))
          · exact sound.distinct first second one other firstOld secondOld sameFlow sameSeq
      · exact sound.named
      · exact sound.names
      · intro ref sub present open_ fits
        refine (sound.ready ref sub present open_ fits).append ?_ more ?_
        · rintro (⟨_, handed⟩ | ⟨_, impossible⟩)
          · exact handed rfl
          · cases impossible
        · change stored.seq = (bus.store stored.flowId).maxSeq + 1
          rw [number, flow]

theorem sound_dispatch (sound : BusSound (bus, begins)) (id : PublishId)
    (settled : HandsOutOnce (bus, begins) (.dispatch id)) :
    BusSound (bus.step redis (.dispatch id), begins) := by
  unfold EventBus.step
  dsimp only
  cases current : bus.publications id with
  | none => exact sound
  | some publication =>
    dsimp only
    split
    · rename_i here appended
      refine sound.handOut current ?_ ?_
      · rintro (impossible | ⟨elsewhere, _⟩)
        · cases impossible
        · rw [show Publication.here _ = publication.here from rfl, here] at elsewhere
          cases elsewhere
      · intro ref sub _ _ _ _
        exact ⟨.inl appended, settled publication current here appended⟩
    · exact sound

theorem sound_send (sound : BusSound (bus, begins)) (id : PublishId) (sent : Bool) :
    BusSound (bus.step redis (.send id sent), begins) := by
  unfold EventBus.step
  dsimp only
  cases current : bus.publications id with
  | none => exact sound
  | some publication =>
    dsimp only
    split
    · rename_i here dispatched
      refine sound.setPhase current ?_ ?_
      · intro _
        refine .inl ⟨here, ?_⟩
        rw [dispatched]
        exact nofun
      · rintro (impossible | ⟨elsewhere, _⟩)
        · dsimp only at impossible
          split at impossible <;> cases impossible
        · rw [show Publication.here _ = publication.here from rfl, here] at elsewhere
          cases elsewhere
    · rename_i elsewhere appended
      refine sound.setPhase current ?_ (fun _ => .inl appended)
      rintro (⟨here, _⟩ | ⟨_, impossible⟩)
      · rw [show Publication.here _ = publication.here from rfl, elsewhere] at here
        cases here
      · dsimp only at impossible
        split at impossible <;> cases impossible
    · exact sound

theorem sound_listen (sound : BusSound (bus, begins)) (id : PublishId)
    (settled : HandsOutOnce (bus, begins) (.listen id)) :
    BusSound (bus.step redis (.listen id), begins) := by
  unfold EventBus.step
  dsimp only
  cases current : bus.publications id with
  | none => exact sound
  | some publication =>
    dsimp only
    split
    · rename_i onWire
      have rule := settled publication current onWire
      refine sound.handOut current ?_ ?_
      · rintro (impossible | ⟨_, impossible⟩) <;> cases impossible
      · intro ref sub present open_ fits passes
        cases here : publication.here with
        | true =>
          rw [here, if_pos rfl] at rule
          refine absurd ⟨ref, sub, present, open_, fits, ?_⟩ rule
          intro event listed
          exact List.mem_singleton.mp listed ▸ passes
        | false =>
          rw [here, if_neg Bool.false_ne_true] at rule
          exact ⟨.inr ⟨here, onWire⟩, rule⟩
    · exact sound

theorem busSound_step (redis : Bool) (current : EventBus × Beginnings) (input : BusInput)
    (sound : BusSound current) (settled : HandsOutOnce current input) :
    BusSound ((notedBus redis).step current input) := by
  rcases current with ⟨bus, begins⟩
  change BusSound (bus.step redis input, noteBeginning bus input begins)
  cases input with
  | subscribe ref subscriberId flowId userId eventTypes =>
    exact sound_subscribe sound ref subscriberId flowId userId eventTypes settled
  | take ref => exact sound_take sound ref
  | close ref => exact sound_close sound ref
  | append id here event now => exact sound_append sound id here event now
  | dispatch id => exact sound_dispatch sound id settled
  | send id sent => exact sound_send sound id sent
  | listen id => exact sound_listen sound id settled

theorem busSound_initial (redis : Bool) : BusSound (notedBus redis).initial := by
  constructor
  · intro id publication present
    cases present
  · intro first second one other present
    cases present
  · intro ref sub present
    cases present
  · intro first second one other present
    cases present
  · intro ref sub present
    cases present

/-- While events are handed out in turn, once and under unshared names, every
subscriber whose queue was never full is served. -/
theorem all_served_run (redis : Bool) (inputs : List BusInput)
    (settled : (notedBus redis).EveryStep HandsOutOnce inputs) :
    (notedBus redis).EveryState AllServed inputs := by
  intro before rest split
  have sound := (notedBus redis).guarded_everyState BusSound HandsOutOnce (busSound_initial redis)
    (busSound_step redis) inputs settled before rest split
  exact fun ref sub present open_ fits => (sound.ready ref sub present open_ fits).served

def busEvent (kind : EventType) : StoreEvent :=
  { flowId := 1, eventType := kind, actor := .user, title := some "report", userId := some "ann" }

def listener (ref : SubscriptionRef) : BusInput :=
  .subscribe ref "ui" (some 1) none none

def inTurn : List BusInput :=
  [listener 0, .append 0 true (busEvent .flowCreated) 0, .dispatch 0, .send 0 true,
    .append 1 true (busEvent .flowPaused) 1, .dispatch 1, .send 1 true, .take 0]

theorem inTurn_served : (notedBus false).EveryState AllServed inTurn := by
  refine all_served_run false inTurn ?_
  rw [Machine.everyStep_iff_stepsFrom]
  have alone : ∀ {bus : EventBus} {publication : Publication},
      (∀ id other, bus.publications id = some other -> ¬ other.Awaited ∨
        publication.event.seq ≤ other.event.seq) -> InTurn bus publication := by
    intro bus publication later id other present waits _ earlier _
    rcases later id other present with gone | behind
    · exact gone waits
    · exact Nat.not_lt_of_le behind earlier
  refine ⟨?_, trivial, ?_, trivial, trivial, ?_, trivial, trivial, trivial⟩
  · intro ref sub present
    cases present
  · rintro publication ⟨⟩ _ _
    refine alone ?_
    intro id other present
    by_cases first : id = 0
    · subst first
      cases present
      exact .inr (Nat.le_refl _)
    · replace present : update (fun _ => none) 0 _ id = some other := present
      rw [update_of_ne first] at present
      cases present
  · rintro publication ⟨⟩ _ _
    refine alone ?_
    intro id other present
    by_cases second : id = 1
    · subst second
      cases present
      exact .inr (Nat.le_refl _)
    · by_cases first : id = 0
      · subst first
        cases present
        refine Or.inl ?_
        rintro (impossible | ⟨impossible, _⟩) <;> cases impossible
      · replace present : update (update (update
            (update (fun _ => none) 0 _) 0 _) 0 _) 1 _ id = some other := present
        rw [update_of_ne second, update_of_ne first, update_of_ne first,
          update_of_ne first] at present
        cases present

def echoed : List BusInput :=
  [listener 0, .append 0 true (busEvent .flowCreated) 0, .dispatch 0, .send 0 true, .listen 0]

def swapped : List BusInput :=
  [listener 0, .append 0 true (busEvent .flowCreated) 0, .append 1 true (busEvent .flowPaused) 1,
    .dispatch 1, .dispatch 0]

def renamed : List BusInput :=
  [listener 0, listener 1, .append 0 true (busEvent .flowCreated) 0, .dispatch 0]

theorem received_twice : (¬ (notedBus true).EveryState AllServed echoed) ∧
      (¬ (notedBus false).EveryState AllServed swapped) ∧
        ¬ (notedBus false).EveryState AllServed renamed := by
  refine ⟨?_, ?_, ?_⟩
  · intro every
    have increasing := (every echoed [] rfl 0 _ rfl rfl rfl).increasing
    have twice := (List.pairwise_cons.mp increasing).1 _ List.mem_cons_self rfl
    exact absurd twice (Nat.lt_irrefl _)
  · intro every
    have increasing := (every swapped [] rfl 0 _ rfl rfl rfl).increasing
    have turned := (List.pairwise_cons.mp increasing).1 _ List.mem_cons_self rfl
    exact absurd turned (by decide)
  · intro every
    have complete := (every renamed [] rfl 0 _ rfl rfl rfl).complete 0 _ rfl
      (.inl ⟨rfl, nofun⟩) rfl (by decide)
    cases complete

end Flow
end BreadMind
