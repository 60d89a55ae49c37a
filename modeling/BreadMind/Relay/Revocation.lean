import BreadMind.Relay.Registration

namespace BreadMind
namespace Relay

open Execution

variable {Body : Type}

/-!
# Delivery after a revocation

Whether a connection may observe a channel is kept in its ACL cache; what it
is sent is decided by the subscription index.  A subscribe request passes the
cache as a gate, and after that nothing compares the two: the invalidation
subscriber changes the cache and leaves the index alone.

The relay runs beside a record of the channels barred for a connection: a
channel is barred when the connection's cache loses it and is barred no
longer when a later subscribe request for it passes the gate.
-/

abbrev Bars := Finset (ConnRef × ChannelId)

variable (state : State Body)

def dropped (input : Input Body) : Finset ChannelId :=
  match input with
  | .visit conn => state.caches conn.ref \ (state.step input).1.caches conn.ref
  | _ => ∅

def noteBars (input : Input Body) (bars : Bars) : Bars :=
  match input with
  | .visit conn => bars ∪ (dropped state input).image (fun channel => (conn.ref, channel))
  | .proceed ref _ =>
    match state.readings ref with
    | some (.subscribing _ ((channel, _) :: _) _) =>
      if channel ∈ state.caches ref then bars.erase (ref, channel) else bars
    | _ => bars
  | _ => bars

def barredRelay (Body : Type) : Machine (State Body × Bars) (Input Body) :=
  (relayMachine Body).recording ∅ noteBars

/-- The channel is in the cache of the connection and not barred for it. -/
def Permitted (bars : Bars) (ref : ConnRef) (channel : ChannelId) : Prop :=
  channel ∈ state.caches ref ∧ (ref, channel) ∉ bars

variable (current : State Body × Bars)

def SendPermitted : Input Body -> Prop
  | .send => ∀ task conn, current.1.fanningOut = some task -> task.holding = some conn ->
      Permitted current.1 current.2 conn.ref task.payload.channelId
  | _ => True

/-- The relay may still send events of the channel to the connection without
asking its cache again. -/
inductive Served (state : State Body) : ConnRef -> ChannelId -> Prop where
  | subscribed {id : ConnId} {channel : ChannelId} {conn : Conn}
      (member : id ∈ state.subs.subscribers channel) (get : state.registry.get id = some conn) :
      Served state conn.ref channel
  | gated {ref : ConnRef} {reading : Reading Body} {channel : ChannelId}
      (current : state.readings ref = some reading) (gate : reading.gated = some channel) :
      Served state ref channel
  | pending {task : FanOut Body} {id : ConnId} {conn : Conn}
      (running : state.fanningOut = some task) (waits : id ∈ task.pending)
      (get : state.registry.get id = some conn) : Served state conn.ref task.payload.channelId
  | held {task : FanOut Body} {conn : Conn} (running : state.fanningOut = some task)
      (holding : task.holding = some conn) : Served state conn.ref task.payload.channelId

/-- Identifiers of connections are fresh, and a cache loses only channels
which its connection is not served. -/
def RevokesUnserved (input : Input Body) : Prop :=
  FreshId current.1 input ∧
    match input with
    | .visit conn => ∀ channel ∈ dropped current.1 input,
        ¬ Served current.1 conn.ref channel
    | _ => True

/-! ## Whatever is served is permitted -/

section Step

variable {state : State Body}

variable {ref : ConnRef} {channel : ChannelId}

theorem Served.live (formed : WellFormed state)
    (served : Served state ref channel) : ∃ reading, state.readings ref = some reading := by
  cases served with
  | subscribed member get =>
    rcases (formed.registered _ _ get).2 with ⟨reading, current, _⟩
    exact ⟨reading, current⟩
  | gated current gate => exact ⟨_, current⟩
  | pending running waits get =>
    rcases (formed.registered _ _ get).2 with ⟨reading, current, _⟩
    exact ⟨reading, current⟩
  | held running holding => exact formed.held _ _ running holding

theorem Served.of_goTo {other : ConnRef} {next : Reading Body}
    (served : Served (state.goTo ref next) other channel) :
    Served state other channel ∨ (other = ref ∧ next.gated = some channel) := by
  cases served with
  | subscribed member get => exact .inl (.subscribed member get)
  | @gated _ reading _ current gate =>
    rcases State.goTo_cases current with ⟨rfl, stands⟩ | ⟨here, current⟩
    · cases stands
      exact .inr ⟨rfl, gate⟩
    · exact .inl (.gated current gate)
  | pending running waits get => exact .inl (.pending running waits get)
  | held running holding => exact .inl (.held running holding)

theorem not_served (unsubscribed : state.subs.subscribers channel = ∅)
    (ungated : ∀ reading, state.readings ref = some reading -> reading.gated ≠ some channel)
    (idle : state.fanningOut = none) : ¬ Served state ref channel := by
  intro served
  cases served with
  | subscribed member get =>
    rw [unsubscribed] at member
    exact Finset.notMem_empty _ member
  | gated current gate => exact ungated _ current gate
  | pending running waits get | held running holding =>
    rw [idle] at running
    cases running

theorem Served.congr {after : State Body} (same : SameDelivery state after)
    (served : Served after ref channel) : Served state ref channel := by
  rcases same with ⟨registry, subs, readings, fanningOut⟩
  cases served with
  | subscribed member get => exact .subscribed (subs ▸ member) (registry ▸ get)
  | gated current gate => exact .gated (readings ▸ current) gate
  | pending running waits get => exact .pending (fanningOut ▸ running) waits (registry ▸ get)
  | held running holding => exact .held (fanningOut ▸ running) holding

theorem Served.of_smaller {registry : Registry} {subs : Subscription}
    (served : Served { state with registry, subs } ref channel)
    (known : ∀ id conn, registry.get id = some conn -> state.registry.get id = some conn ∨
        ((∀ target, id ∉ subs.subscribers target) ∧
          ∀ task, state.fanningOut = some task -> id ∉ task.pending))
    (members : ∀ id target conn, id ∈ subs.subscribers target ->
      state.registry.get id = some conn ->
        id ∈ state.subs.subscribers target ∨ Served state conn.ref target) :
    Served state ref channel := by
  cases served with
  | @subscribed id target conn member get =>
    rcases known id conn get with old | ⟨none_, _⟩
    · rcases members id channel conn member old with listed | served
      · exact .subscribed listed old
      · exact served
    · exact False.elim (none_ channel member)
  | gated current gate => exact .gated current gate
  | @pending task id conn running waits get =>
    rcases known id conn get with old | ⟨_, none_⟩
    · exact .pending running waits old
    · exact False.elim (none_ task running waits)
  | held running holding => exact .held running holding

theorem Served.of_fanOut {task : FanOut Body} (served : Served (state.fanOut task) ref channel)
    (waits : ∀ id conn, id ∈ task.pending -> state.registry.get id = some conn ->
      Served state conn.ref task.payload.channelId)
    (holds : ∀ conn, task.holding = some conn -> Served state conn.ref task.payload.channelId) :
    Served state ref channel := by
  have started : ∀ current, (state.fanOut task).fanningOut = some current -> current = task := by
    intro current running
    change (if task.pending = ∅ ∧ task.holding = none then none else some task) = some current at running
    split at running
    · cases running
    · cases running
      rfl
  cases served with
  | subscribed member get => exact .subscribed member get
  | gated current gate => exact .gated current gate
  | @pending current id conn running waiting get =>
    have same := started current running
    subst same
    exact waits id conn waiting get
  | @held current conn running holding =>
    have same := started current running
    subst same
    exact holds conn holding

theorem Served.before (formed : WellFormed state) {input : Input Body} (fresh : FreshId state input)
    (served : Served (state.step input).1 ref channel) :
    Served state ref channel ∨ ∃ history conn since todo accepted, input = .proceed ref history ∧
        state.readings ref = some (.subscribing conn ((channel, since) :: todo) accepted) ∧
        channel ∈ state.caches ref ∧ (state.step input).1.caches = state.caches := by
  have outcome := moves state input
  generalize (state.step input).1 = after at outcome served
  cases outcome with
  | stays same caches => exact .inl (served.congr same)
  | @accepts start userId workspaceId ids free =>
    rcases served.of_goTo with old | ⟨_, impossible⟩
    · have same : SameDelivery state (state.setCache start ids.toFinset) := ⟨rfl, rfl, rfl, rfl⟩
      exact .inl (old.congr same)
    · cases impossible
  | @registers start startedAt userId workspaceId reading =>
    rcases served.of_goTo with old | ⟨_, impossible⟩
    · have ⟨unknown, unawaited⟩ := fresh userId workspaceId reading
      refine .inl (old.of_smaller ?_ (fun _ _ _ member _ => .inl member))
      intro id conn get
      by_cases here : id = (connection start userId workspaceId startedAt).id
      · subst here
        refine .inr ⟨?_, unawaited⟩
        intro target member
        rcases formed.subscribed _ target member with ⟨other, known⟩
        rw [unknown] at known
        cases known
      · exact .inl ((Function.update_of_ne here _ _).symm.trans get)
    · cases impossible
  | @goesOn _ current before next conn reading works same stays gate =>
    rcases served.of_goTo with old | ⟨here, gated⟩
    · exact .inl old
    · rcases gate with none_ | kept
      · rw [none_] at gated
        cases gated
      · exact .inl (here ▸ .gated reading (kept ▸ gated))
  | @admits current history conn target since todo accepted reading visible =>
    rcases served.of_goTo with old | ⟨here, gated⟩
    · exact .inl old
    · cases gated
      subst here
      exact .inr ⟨history, conn, since, todo, accepted, rfl, reading, visible, rfl⟩
  | @subscribes current history conn target since todo accepted reading =>
    rcases served.of_goTo with old | ⟨_, impossible⟩
    · refine .inl (old.of_smaller (fun _ _ get => .inl get) ?_)
      intro id place other member get
      rcases Subscription.mem_subscribers_subscribe.mp member with listed | ⟨here, named⟩
      · exact .inl listed
      · subst here named
        have ⟨refs, registered⟩ := formed.live current _ conn reading rfl
        rw [registered] at get
        cases get
        exact .inr (refs ▸ .gated reading rfl)
    · cases impossible
  | unsubscribes reading =>
    rcases served.of_goTo with old | ⟨_, impossible⟩
    · refine .inl (old.of_smaller (fun _ _ get => .inl get) ?_)
      exact fun _ _ _ member _ => .inl (Subscription.mem_subscribers_unsubscribe.mp member).1
    · cases impossible
  | leaves reading =>
    rcases served.of_goTo with old | ⟨_, impossible⟩
    · refine .inl (old.of_smaller (fun _ _ get => .inl get) ?_)
      exact fun _ _ _ member _ =>
        .inl ((Subscription.mem_subscribers_removeAll formed.coherent).mp member).1
    · cases impossible
  | @forgets current conn reading =>
    rcases served.of_goTo with old | ⟨_, impossible⟩
    · exact .inl (old.of_smaller (fun _ _ get => .inl (Registry.get_of_remove get).2)
        (fun _ _ _ member _ => .inl member))
    · cases impossible
  | visits same caches => exact .inl (served.congr same)
  | publishes free =>
    exact .inl (served.of_fanOut (fun _ _ member get => .subscribed member get)
      (fun _ impossible => by cases impossible))
  | @takes id task running pending free =>
    have waits : ∀ id conn, id ∈ task.pending -> state.registry.get id = some conn ->
        Served state conn.ref task.payload.channelId := fun _ _ member get => .pending running member get
    exact .inl (served.of_fanOut
      (fun id conn member get => waits id conn (Finset.mem_of_mem_erase member) get)
      (fun conn get => waits id conn pending get))
  | @sends task conn running held =>
    have waits : ∀ id conn, id ∈ task.pending -> state.registry.get id = some conn ->
        Served state conn.ref task.payload.channelId := fun _ _ member get => .pending running member get
    exact .inl (served.of_fanOut waits (fun _ impossible => by cases impossible))

theorem Permitted.kept {bars : Bars} {input : Input Body}
    (permitted : Permitted state bars ref channel)
    (stays : channel ∈ (state.step input).1.caches ref) :
    Permitted (state.step input).1 (noteBars state input bars) ref channel := by
  refine ⟨stays, ?_⟩
  intro barred
  cases input with
  | visit conn =>
    rcases Finset.mem_union.mp barred with old | new
    · exact permitted.2 old
    · rcases Finset.mem_image.mp new with ⟨lost, member, same⟩
      cases same
      exact (Finset.mem_sdiff.mp member).2 stays
  | proceed other history =>
    unfold noteBars at barred
    dsimp only at barred
    split at barred
    · split at barred
      · exact permitted.2 (Finset.mem_of_mem_erase barred)
      · exact permitted.2 barred
    · exact permitted.2 barred
  | _ => exact permitted.2 barred

end Step

structure ServedPermitted : Prop where
  formed : WellFormed current.1
  permitted : ∀ ref channel, Served current.1 ref channel ->
    Permitted current.1 current.2 ref channel

theorem servedPermitted_initially : ServedPermitted (barredRelay Body).initial where
  formed := WellFormed.initially
  permitted := by
    intro ref channel served
    cases served with
    | subscribed member get => cases get
    | gated current gate => cases current
    | pending running waits get => cases get
    | held running holding => cases running

theorem servedPermitted_step (input : Input Body)
    (holds : ServedPermitted current) (guarded : RevokesUnserved current input) :
    ServedPermitted ((barredRelay Body).step current input) := by
  rcases current with ⟨state, bars⟩
  refine ⟨holds.formed.step guarded.1.unregistered, ?_⟩
  intro ref channel served
  change Permitted (state.step input).1 (noteBars state input bars) ref channel
  rcases Served.before holds.formed guarded.1 served with old |
    ⟨history, conn, since, todo, accepted, named, reading, visible, caches⟩
  · have permitted := holds.permitted ref channel old
    refine permitted.kept ?_
    rcases old.live holds.formed with ⟨reading, current⟩
    rcases caches_step input current with same | ⟨conn, named, refs⟩
    · exact same ▸ permitted.1
    · subst named refs
      by_contra lost
      exact guarded.2 channel (Finset.mem_sdiff.mpr ⟨permitted.1, lost⟩) old
  · refine ⟨caches ▸ visible, ?_⟩
    subst named
    unfold noteBars
    dsimp only
    rw [reading]
    dsimp only
    rw [if_pos visible]
    exact Finset.notMem_erase _ _

/-- In every run whose steps revoke only what is not served, events are sent to a
connection only of channels in its cache, not revoked since they passed the gate. -/
theorem sends_permitted_run (inputs : List (Input Body))
    (guarded : (barredRelay Body).EveryStep RevokesUnserved inputs) :
    (barredRelay Body).EveryStep SendPermitted inputs := by
  refine (barredRelay Body).everyStep_of_guarded ServedPermitted RevokesUnserved
    servedPermitted_initially servedPermitted_step ?_ inputs guarded
  rintro ⟨state, bars⟩ input holds _
  cases input with
  | send =>
    intro task conn running holding
    exact holds.permitted conn.ref task.payload.channelId (.held running holding)
  | _ => trivial

def subscribing : List (Input Unit) :=
  [.fetchVisible 0 "u" "w" (some ["c", "d"]), .register 0 "1", .receive 0 (.subscribe ["c"] []),
    .proceed 0 none, .proceed 0 none, .proceed 0 none, .proceed 0 none]

def subscriber : Conn :=
  connection 0 "u" "w" "1"

def delivering : List (Input Unit) :=
  [.publish ⟨"c", ()⟩, .take "u:1", .send]

def revoking (channel : ChannelId) : List (Input Unit) :=
  [.invalidate (.kindB "u" channel .remove), .visit subscriber]

/-- Losing the other channel leaves the delivery of the first one permitted. -/
theorem sends_permitted_other : (barredRelay Unit).EveryStep SendPermitted
    (subscribing ++ revoking "d" ++ delivering) := by
  refine sends_permitted_run _ (((barredRelay Unit).everyStep_iff_stepsFrom _ _).mpr ?_)
  have quiet : ∀ {state : State Unit × Bars} {input : Input Unit},
      FreshId state.1 input -> (∀ conn, input ≠ .visit conn) -> RevokesUnserved state input := by
    intro state input fresh unvisited
    refine ⟨fresh, ?_⟩
    cases input with
    | visit conn => exact False.elim (unvisited conn rfl)
    | _ => trivial
  refine ⟨quiet trivial (by simp), quiet ?_ (by simp), quiet trivial (by simp), quiet trivial (by simp),
    quiet trivial (by simp), quiet trivial (by simp), quiet trivial (by simp), quiet trivial (by simp),
    ⟨trivial, ?_⟩, quiet trivial (by simp), quiet trivial (by simp), quiet trivial (by simp), trivial⟩
  · intro userId workspaceId accepted
    cases accepted
    exact ⟨by decide, fun task running => by cases running⟩
  · intro channel lost
    have same : channel = "d" := by
      have only : dropped ((barredRelay Unit).after (subscribing ++ [.invalidate (.kindB "u" "d" .remove)])).1
          (.visit subscriber) = {"d"} := by decide
      exact Finset.mem_singleton.mp (only ▸ lost)
    subst same
    exact not_served (by decide) (fun reading current => by cases current; exact nofun) rfl

/-- The subscription outlives the revocation, and the next event is sent. -/
theorem revoked_channel_sent : ¬ ∀ inputs, (barredRelay Unit).EveryStep SendPermitted inputs := by
  intro claimed
  have permitted := claimed (subscribing ++ revoking "c" ++ delivering)
    (subscribing ++ revoking "c" ++ [.publish ⟨"c", ()⟩, .take "u:1"]) .send [] rfl
  have visible := (permitted _ subscriber rfl rfl).1
  exact absurd visible (by decide)

end Relay
end BreadMind
