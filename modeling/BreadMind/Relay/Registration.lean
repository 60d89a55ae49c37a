import BreadMind.Relay.Handler

namespace BreadMind
namespace Relay

open Execution

variable {Body : Type}

/-!
# Registered connections

As long as no connection starts under an identifier that is still in use, the
identifiers, the connection objects and the read loops are in bijection: a
registered identifier leads to a live read loop of that very connection, and
each live read loop is registered.  Subscriptions belong to registered
connections, and a read loop that has ended has none.
-/

variable (state : State Body)

/-- A new connection gets an identifier which is not registered and which no
running fan-out is about to look up. -/
def FreshId : Input Body -> Prop
  | .register ref startedAt => ∀ userId workspaceId,
      state.readings ref = some (.accepting userId workspaceId) ->
        state.registry.get (connection ref userId workspaceId startedAt).id = none ∧
          ∀ task, state.fanningOut = some task ->
            (connection ref userId workspaceId startedAt).id ∉ task.pending
  | _ => True

/-- A new connection gets an identifier which is not registered. -/
def Unregistered : Input Body -> Prop
  | .register ref startedAt => ∀ userId workspaceId,
      state.readings ref = some (.accepting userId workspaceId) ->
        state.registry.get (connection ref userId workspaceId startedAt).id = none
  | _ => True

theorem FreshId.unregistered {state : State Body} {input : Input Body}
    (fresh : FreshId state input) : Unregistered state input := by
  cases input with
  | register ref startedAt =>
    exact fun userId workspaceId reading => (fresh userId workspaceId reading).1
  | _ => trivial

structure WellFormed : Prop where
  registered : ∀ id conn, state.registry.get id = some conn -> conn.id = id ∧
    ∃ reading, state.readings conn.ref = some reading ∧ reading.conn = some conn
  live : ∀ ref reading conn, state.readings ref = some reading -> reading.conn = some conn ->
    conn.ref = ref ∧ state.registry.get conn.id = some conn
  coherent : state.subs.Coherent
  subscribed : ∀ id channel, id ∈ state.subs.subscribers channel ->
    ∃ conn, state.registry.get id = some conn
  left : ∀ ref reading conn, state.readings ref = some reading -> reading.conn = some conn ->
    reading.hasLeft = true -> ∀ channel, conn.id ∉ state.subs.subscribers channel
  held : ∀ task conn, state.fanningOut = some task -> task.holding = some conn ->
    ∃ reading, state.readings conn.ref = some reading

namespace WellFormed

variable {state after : State Body}

theorem initially : WellFormed (relayMachine Body).initial where
  registered := fun _ _ impossible => by cases impossible
  live := fun _ _ _ impossible => by cases impossible
  coherent := Subscription.coherent_empty
  subscribed := fun id _ impossible => False.elim (Finset.notMem_empty id impossible)
  left := fun _ _ _ impossible => by cases impossible
  held := fun _ _ impossible => by cases impossible

theorem unique (formed : WellFormed state) {first second : ConnRef}
    {firstReading secondReading : Reading Body} {firstConn secondConn : Conn}
    (firstAt : state.readings first = some firstReading) (firstOf : firstReading.conn = some firstConn)
    (secondAt : state.readings second = some secondReading)
    (secondOf : secondReading.conn = some secondConn) (same : firstConn.id = secondConn.id) :
    first = second ∧ firstConn = secondConn := by
  have ⟨firstRef, firstGet⟩ := formed.live first firstReading firstConn firstAt firstOf
  have ⟨secondRef, secondGet⟩ := formed.live second secondReading secondConn secondAt secondOf
  rw [same, secondGet] at firstGet
  cases firstGet
  exact ⟨firstRef.symm.trans secondRef, rfl⟩

theorem congr (formed : WellFormed state) (same : SameDelivery state after) : WellFormed after := by
  rcases same with ⟨registry, subs, readings, fanningOut⟩
  constructor
  · rw [registry, readings]
    exact formed.registered
  · rw [registry, readings]
    exact formed.live
  · rw [subs]
    exact formed.coherent
  · rw [registry, subs]
    exact formed.subscribed
  · rw [readings, subs]
    exact formed.left
  · rw [readings, fanningOut]
    exact formed.held

theorem goesOn (formed : WellFormed state) {ref : ConnRef} {before next : Reading Body}
    (reading : state.readings ref = some before) (same : next.conn = before.conn)
    (stays : next.hasLeft = true -> ∀ conn, next.conn = some conn ->
      ∀ channel, conn.id ∉ state.subs.subscribers channel) : WellFormed (state.goTo ref next) := by
  constructor
  · intro id conn get
    rcases formed.registered id conn get with ⟨named, held, heldAt, heldOf⟩
    refine ⟨named, ?_⟩
    by_cases here : conn.ref = ref
    · rw [here] at heldAt ⊢
      rw [reading] at heldAt
      cases heldAt
      exact ⟨next, State.goTo_same _ _ _, same.trans heldOf⟩
    · exact ⟨held, (State.goTo_other _ _ here).trans heldAt, heldOf⟩
  · intro other current conn currentAt currentOf
    rcases State.goTo_cases currentAt with ⟨rfl, stands⟩ | ⟨here, currentAt⟩
    · cases stands
      exact formed.live other before conn reading (same ▸ currentOf)
    · exact formed.live other current conn currentAt currentOf
  · exact formed.coherent
  · exact formed.subscribed
  · intro other current conn currentAt currentOf ended channel
    rcases State.goTo_cases currentAt with ⟨rfl, stands⟩ | ⟨here, currentAt⟩
    · cases stands
      exact stays ended conn currentOf channel
    · exact formed.left other current conn currentAt currentOf ended channel
  · intro task conn running held
    rcases formed.held task conn running held with ⟨current, currentAt⟩
    by_cases here : conn.ref = ref
    · exact ⟨next, here ▸ State.goTo_same _ _ _⟩
    · exact ⟨current, (State.goTo_other _ _ here).trans currentAt⟩

theorem withSubs (formed : WellFormed state) {subs : Subscription} (coherent : subs.Coherent)
    (within : ∀ id channel, id ∈ subs.subscribers channel ->
      id ∈ state.subs.subscribers channel ∨ ∃ ref reading conn,
        state.readings ref = some reading ∧ reading.conn = some conn ∧ reading.hasLeft = false ∧
          conn.id = id) : WellFormed { state with subs } where
  registered := formed.registered
  live := formed.live
  coherent := coherent
  subscribed := by
    intro id channel member
    rcases within id channel member with old | ⟨ref, reading, conn, at_, of, _, named⟩
    · exact formed.subscribed id channel old
    · exact ⟨conn, named ▸ (formed.live ref reading conn at_ of).2⟩
  left := by
    intro ref reading conn at_ of ended channel member
    rcases within conn.id channel member with old | ⟨other, current, live, currentAt, currentOf, stays, named⟩
    · exact formed.left ref reading conn at_ of ended channel old
    · have same := (formed.unique currentAt currentOf at_ of named).1
      subst same
      rw [at_] at currentAt
      cases currentAt
      rw [ended] at stays
      cases stays
  held := formed.held

theorem withFanOut (formed : WellFormed state) {task : FanOut Body}
    (held : ∀ conn, task.holding = some conn ->
      ∃ reading, state.readings conn.ref = some reading) : WellFormed (state.fanOut task) where
  registered := formed.registered
  live := formed.live
  coherent := formed.coherent
  subscribed := formed.subscribed
  left := formed.left
  held := by
    intro current conn running holding
    change (if task.pending = ∅ ∧ task.holding = none then none else some task) = some current at running
    split at running
    · cases running
    · cases running
      exact held conn holding

theorem accepts (formed : WellFormed state) {ref : ConnRef} (free : state.readings ref = none)
    (userId : UserId) (workspaceId : WorkspaceId) (cache : Cache) :
    WellFormed ((state.setCache ref cache).goTo ref (.accepting userId workspaceId)) := by
  have absent : ∀ other reading, state.readings other = some reading -> other ≠ ref := by
    intro other reading at_ same
    rw [same, free] at at_
    cases at_
  constructor
  · intro id conn get
    rcases formed.registered id conn get with ⟨named, reading, at_, of⟩
    exact ⟨named, reading, (State.goTo_other _ _ (absent _ _ at_)).trans at_, of⟩
  · intro other reading conn at_ of
    rcases State.goTo_cases at_ with ⟨rfl, stands⟩ | ⟨here, at_⟩
    · cases stands
      cases of
    · exact formed.live other reading conn at_ of
  · exact formed.coherent
  · exact formed.subscribed
  · intro other reading conn at_ of ended
    rcases State.goTo_cases at_ with ⟨rfl, stands⟩ | ⟨here, at_⟩
    · cases stands
      cases of
    · exact formed.left other reading conn at_ of ended
  · intro task conn running held
    rcases formed.held task conn running held with ⟨reading, at_⟩
    exact ⟨reading, (State.goTo_other _ _ (absent _ _ at_)).trans at_⟩

theorem registers (formed : WellFormed state) (conn : Conn) {userId : UserId}
    {workspaceId : WorkspaceId}
    (reading : state.readings conn.ref = some (.accepting userId workspaceId))
    (fresh : state.registry.get conn.id = none) :
    WellFormed ({ state with registry := state.registry.add conn }.goTo conn.ref (.idle conn)) := by
  have getSame : (state.registry.add conn).get conn.id = some conn := Function.update_self _ _ _
  have getOther : ∀ id ≠ conn.id, (state.registry.add conn).get id = state.registry.get id :=
    fun id different => Function.update_of_ne different _ _
  have otherRef : ∀ id other, state.registry.get id = some other -> other.ref ≠ conn.ref := by
    intro id other get same
    rcases (formed.registered id other get).2 with ⟨current, at_, of⟩
    rw [same, reading] at at_
    cases at_
    cases of
  constructor
  · intro id other get
    obtain ⟨rfl, rfl⟩ | get := Registry.get_of_add get
    · exact ⟨rfl, .idle other, State.goTo_same _ _ _, rfl⟩
    · rcases formed.registered id other get with ⟨named, current, at_, of⟩
      exact ⟨named, current, (State.goTo_other _ _ (otherRef id other get)).trans at_, of⟩
  · intro ref current other at_ of
    rcases State.goTo_cases at_ with ⟨rfl, stands⟩ | ⟨here, at_⟩
    · cases stands
      cases of
      exact ⟨rfl, getSame⟩
    · rcases formed.live ref current other at_ of with ⟨refs, get⟩
      refine ⟨refs, (getOther other.id ?_).trans get⟩
      intro same
      rw [same, fresh] at get
      cases get
  · exact formed.coherent
  · intro id channel member
    rcases formed.subscribed id channel member with ⟨other, get⟩
    refine ⟨other, (getOther id ?_).trans get⟩
    intro same
    rw [same, fresh] at get
    cases get
  · intro ref current other at_ of ended
    rcases State.goTo_cases at_ with ⟨rfl, stands⟩ | ⟨here, at_⟩
    · cases stands
      cases ended
    · exact formed.left ref current other at_ of ended
  · intro task other running held
    rcases formed.held task other running held with ⟨current, at_⟩
    by_cases here : other.ref = conn.ref
    · exact ⟨.idle conn, here ▸ State.goTo_same _ _ _⟩
    · exact ⟨current, (State.goTo_other _ _ here).trans at_⟩

theorem forgets (formed : WellFormed state) {ref : ConnRef} {conn : Conn}
    (reading : state.readings ref = some (.left conn)) :
    WellFormed ({ state with registry := state.registry.remove conn.id }.goTo ref .closed) := by
  have getOther : ∀ id ≠ conn.id,
      (state.registry.remove conn.id).get id = state.registry.get id :=
    fun id different => Function.update_of_ne different _ _
  have ⟨refs, registered⟩ := formed.live ref _ conn reading rfl
  have otherRef : ∀ id other, id ≠ conn.id -> state.registry.get id = some other ->
      other.ref ≠ ref := by
    intro id other different get same
    rcases formed.registered id other get with ⟨named, current, at_, of⟩
    rw [same, reading] at at_
    cases at_
    cases of
    exact different named.symm
  constructor
  · intro id other get
    obtain ⟨here, get⟩ := Registry.get_of_remove get
    rcases formed.registered id other get with ⟨named, current, at_, of⟩
    exact ⟨named, current, (State.goTo_other _ _ (otherRef id other here get)).trans at_, of⟩
  · intro other current live at_ of
    rcases State.goTo_cases at_ with ⟨rfl, stands⟩ | ⟨here, at_⟩
    · cases stands
      cases of
    · rcases formed.live other current live at_ of with ⟨liveRef, get⟩
      refine ⟨liveRef, (getOther live.id ?_).trans get⟩
      intro same
      exact here (formed.unique at_ of reading rfl same).1
  · exact formed.coherent
  · intro id channel member
    rcases formed.subscribed id channel member with ⟨other, get⟩
    refine ⟨other, (getOther id ?_).trans get⟩
    intro same
    exact formed.left ref _ conn reading rfl rfl channel (same ▸ member)
  · intro other current live at_ of ended
    rcases State.goTo_cases at_ with ⟨rfl, stands⟩ | ⟨here, at_⟩
    · cases stands
      cases of
    · exact formed.left other current live at_ of ended
  · intro task other running held
    rcases formed.held task other running held with ⟨current, at_⟩
    by_cases here : other.ref = ref
    · exact ⟨.closed, here ▸ State.goTo_same _ _ _⟩
    · exact ⟨current, (State.goTo_other _ _ here).trans at_⟩

theorem step (formed : WellFormed state) {input : Input Body} (fresh : Unregistered state input) :
    WellFormed (state.step input).1 := by
  have outcome := moves state input
  generalize (state.step input).1 = after at outcome
  cases outcome with
  | stays same caches => exact formed.congr same
  | accepts free => exact formed.accepts free _ _ _
  | @registers ref startedAt userId workspaceId reading =>
    exact formed.registers (connection ref userId workspaceId startedAt) reading
      (fresh userId workspaceId reading)
  | goesOn reading works same stays gate =>
    exact formed.goesOn reading (same.trans works.symm) (fun ended => by rw [stays] at ended; cases ended)
  | admits reading visible => exact formed.goesOn reading rfl (fun ended => by cases ended)
  | @subscribes ref history conn channel since todo accepted reading =>
    refine WellFormed.goesOn (formed.withSubs (formed.coherent.subscribe conn.id channel) ?_)
      reading rfl (fun ended => by cases ended)
    intro id target member
    rcases Subscription.mem_subscribers_subscribe.mp member with old | ⟨_, same⟩
    · exact .inl old
    · exact .inr ⟨ref, _, conn, reading, rfl, rfl, same.symm⟩
  | @unsubscribes ref history conn channel todo reading =>
    refine WellFormed.goesOn (formed.withSubs (formed.coherent.unsubscribe conn.id channel) ?_)
      reading rfl (fun ended => by cases ended)
    intro id target member
    exact .inl (Subscription.mem_subscribers_unsubscribe.mp member).1
  | @leaves ref conn reading =>
    refine WellFormed.goesOn (formed.withSubs (formed.coherent.removeAll conn.id) ?_)
      reading rfl ?_
    · intro id target member
      exact .inl ((Subscription.mem_subscribers_removeAll formed.coherent).mp member).1
    · intro _ other same channel member
      cases same
      exact ((Subscription.mem_subscribers_removeAll formed.coherent).mp member).2 rfl
  | forgets reading => exact formed.forgets reading
  | visits same caches => exact formed.congr same
  | publishes free => exact formed.withFanOut (fun conn impossible => by cases impossible)
  | @takes id task running pending free =>
    refine formed.withFanOut fun conn get => ?_
    rcases (formed.registered id conn get).2 with ⟨reading, at_, _⟩
    exact ⟨reading, at_⟩
  | sends running held => exact formed.withFanOut (fun conn impossible => by cases impossible)

end WellFormed

end Relay
end BreadMind
