import BreadMind.Messenger.Membership
import BreadMind.Relay.Handler

namespace BreadMind
namespace Relay

open Execution Messenger

/-!
# The relay beside the core

The core changes memberships, roles and activations and announces each change
on the bus; the relay's subscriber takes the announcements off the bus one by
one, in the order of the changes.  The two questions the relay asks the core
are answered from the tables as they are at that moment, or not at all.

Connections here are those of authenticated users, so user and workspace are
identifiers of the core.  They are kept apart by the text of the user which a
connection identifier starts with, even where two connections of one user
share an identifier.
-/

inductive Change where
  | addMember (channelId userId : UUID)
  | removeMember (channelId userId : UUID)
  | updateUserRole (workspaceId userId : UUID) (role : Role)
  | deactivateUser (workspaceId userId : UUID) (now : Timestamp)

namespace Change

def apply (core : Database) : Change -> Option Database
  | .addMember channelId userId => Messenger.addMember core channelId userId
  | .removeMember channelId userId => some (Messenger.removeMember core channelId userId)
  | .updateUserRole workspaceId userId role =>
    some (Messenger.updateUserRole core workspaceId userId role)
  | .deactivateUser workspaceId userId now =>
    some (Messenger.deactivateUser core workspaceId userId now)

/-- `publish_user_channel_change` and `publish_user_invalidate`. -/
def announcement : Change -> AclEvent
  | .addMember channelId userId => .kindB userId.text channelId.text .add
  | .removeMember channelId userId => .kindB userId.text channelId.text .remove
  | .updateUserRole _ userId _ => .kindA userId.text
  | .deactivateUser _ userId _ => .kindA userId.text

end Change

/-- The channels visible to a user, as the core shows them to the relay. -/
def visibleChannels (core : Database) (workspaceId userId : UUID) : List ChannelId :=
  (queryVisibleChannels core workspaceId userId).map UUID.text

theorem mem_visibleChannels {core : Database} {workspaceId userId : UUID} {channel : ChannelId} :
    channel ∈ visibleChannels core workspaceId userId <->
      ∃ channelId ∈ queryVisibleChannels core workspaceId userId, channelId.text = channel :=
  List.mem_map

variable (Body : Type)

structure Deployment where
  core : Database
  bus : List AclEvent := []
  relay : State Body := {}

inductive Action where
  | change (change : Change)
  /-- The subscriber takes the next announcement. -/
  | deliver
  | connect (ref : ConnRef) (userId workspaceId : UUID) (answered : Bool)
  | refetch (conn : Conn) (userId workspaceId : UUID) (answered : Bool)
  /-- Whatever the relay does without the core and the bus. -/
  | relay (input : Input Body)

variable {Body}

def Input.isLocal : Input Body -> Bool
  | .fetchVisible .. => false
  | .invalidate _ => false
  | .refetch .. => false
  | _ => true

namespace Deployment

variable (system : Deployment Body)

/-- `VisibleChannels`, when the core answers. -/
def answer (userId workspaceId : UUID) (answered : Bool) : Option (List ChannelId) :=
  if answered then some (visibleChannels system.core workspaceId userId) else none

def runRelay (input : Input Body) : Deployment Body :=
  { system with relay := (system.relay.step input).1 }

/-- The identifiers are those of the request which a refetch for the
connection sends: the user is read from the event. -/
def Asks (conn : Conn) (userId workspaceId : UUID) : Prop :=
  (system.relay.invalidating.map fun task => task.event.userId) = some userId.text ∧
    conn.workspaceId = workspaceId.text

instance (system : Deployment Body) (conn : Conn) (userId workspaceId : UUID) :
    Decidable (system.Asks conn userId workspaceId) :=
  inferInstanceAs (Decidable (_ ∧ _))

def step (system : Deployment Body) : Action Body -> Deployment Body
  | .change change =>
    match change.apply system.core with
    | some core => { system with core, bus := system.bus ++ [change.announcement] }
    | none => system
  | .deliver =>
    match system.relay.invalidating, system.bus with
    | none, event :: bus => { system with bus }.runRelay (.invalidate event)
    | _, _ => system
  | .connect ref userId workspaceId answered =>
    system.runRelay (.fetchVisible ref userId.text workspaceId.text
      (system.answer userId workspaceId answered))
  | .refetch conn userId workspaceId answered =>
    if system.Asks conn userId workspaceId then
      system.runRelay (.refetch conn (system.answer userId workspaceId answered))
    else system
  | .relay input => if input.isLocal then system.runRelay input else system

end Deployment

def deployment (Body : Type) (core : Database) : Machine (Deployment Body) (Action Body) where
  initial := { core }
  step := Deployment.step

/-! ## Who a connection belongs to -/

variable {state : State Body}

def Named (userId : UserId) (id : ConnId) : Prop :=
  ∃ user : UUID, ∃ startedAt, userId = user.text ∧ id = userId ++ ":" ++ startedAt

theorem Named.unique {first second : UserId} {id : ConnId} (firstNamed : Named first id)
    (secondNamed : Named second id) : first = second := by
  rcases firstNamed with ⟨user, startedAt, firstText, firstId⟩
  rcases secondNamed with ⟨other, otherStart, secondText, secondId⟩
  rw [firstText, String.append_assoc] at firstId
  rw [secondText, String.append_assoc] at secondId
  rw [firstText, secondText, UUID.text_append_inj (firstId.symm.trans secondId)]

def Owned (state : State Body) (conn : Conn) : Prop :=
  ∃ reading, state.readings conn.ref = some reading ∧ reading.conn = some conn

def Known (state : State Body) (conn : Conn) : Prop :=
  ∃ reading, state.readings conn.ref = some reading ∧
    (reading.conn = some conn ∨ reading = .closed)

variable {conn : Conn}

theorem Owned.known (owned : Owned state conn) : Known state conn := by
  rcases owned with ⟨reading, current, works⟩
  exact ⟨reading, current, .inl works⟩

theorem Known.unique {other : Conn} (known : Known state conn) (owned : Owned state other)
    (same : other.ref = conn.ref) : other = conn := by
  rcases known with ⟨reading, current, works | ended⟩
  · rcases owned with ⟨_, otherAt, otherWorks⟩
    rw [same, current] at otherAt
    cases otherAt
    rw [works] at otherWorks
    cases otherWorks
    rfl
  · rcases owned with ⟨_, otherAt, otherWorks⟩
    rw [same, current, ended] at otherAt
    cases otherAt
    cases otherWorks

theorem Known.goTo {conn : Conn} (known : Known state conn) {ref : ConnRef} {before next : Reading Body}
    (reading : state.readings ref = some before)
    (keeps : before.conn = some conn ∨ before = .closed -> next.conn = some conn ∨ next = .closed) :
    Known (state.goTo ref next) conn := by
  rcases known with ⟨current, currentAt, works⟩
  by_cases here : conn.ref = ref
  · rw [here, reading] at currentAt
    cases currentAt
    exact ⟨next, here ▸ State.goTo_same _ _ _, keeps works⟩
  · exact ⟨current, (State.goTo_other _ _ here).trans currentAt, works⟩

theorem Owned.of_goTo {ref : ConnRef} {next : Reading Body}
    (owned : Owned (state.goTo ref next) conn) :
    Owned state conn ∨ (conn.ref = ref ∧ next.conn = some conn) := by
  rcases owned with ⟨current, currentAt, works⟩
  by_cases here : conn.ref = ref
  · rw [here, State.goTo_same] at currentAt
    cases currentAt
    exact .inr ⟨here, works⟩
  · rw [State.goTo_other _ _ here] at currentAt
    exact .inl ⟨current, currentAt, works⟩

theorem Known.step {conn : Conn} (known : Known state conn) (input : Input Body) :
    Known (state.step input).1 conn := by
  have goesOn : ∀ {ref : ConnRef} {before next : Reading Body} {owner : Conn}
      {subs : Subscription}, state.readings ref = some before -> before.conn = some owner ->
        next.conn = some owner -> Known (State.goTo { state with subs } ref next) conn := by
    intro ref before next owner subs reading works same
    have kept : Known { state with subs } conn := known
    refine kept.goTo reading ?_
    rintro (own | ended)
    · exact .inl (same.trans (works.symm.trans own))
    · rw [ended] at works
      cases works
  have outcome := moves state input
  generalize (state.step input).1 = after at outcome
  cases outcome with
  | stays same _ =>
    unfold Known
    rw [same.readings]
    exact known
  | @accepts ref _ _ ids free =>
    rcases known with ⟨reading, current, works⟩
    refine ⟨reading, (State.goTo_other _ _ ?_).trans current, works⟩
    intro same
    rw [same, free] at current
    cases current
  | registers reading =>
    refine Known.goTo known reading ?_
    rintro (own | ended)
    · cases own
    · cases ended
  | goesOn reading works same _ _ => exact goesOn reading works same
  | admits reading _ | subscribes reading | unsubscribes reading | leaves reading =>
    exact goesOn reading rfl rfl
  | forgets reading => exact Known.goTo known reading fun _ => .inr rfl
  | visits same _ =>
    unfold Known
    rw [same.readings]
    exact known
  | publishes _ | takes _ _ _ | sends _ _ => exact known

theorem Owned.before {input : Input Body} (owned : Owned (state.step input).1 conn) :
    Owned state conn ∨ ∃ userId workspaceId startedAt, input = .register conn.ref startedAt ∧
        state.readings conn.ref = some (.accepting userId workspaceId) ∧
        conn = connection conn.ref userId workspaceId startedAt := by
  have goesOn : ∀ {ref : ConnRef} {before next : Reading Body} {owner : Conn}
      {subs : Subscription}, state.readings ref = some before -> before.conn = some owner ->
        next.conn = some owner -> Owned (State.goTo { state with subs } ref next) conn ->
          Owned state conn := by
    intro ref before next owner subs reading works same owned
    rcases owned.of_goTo with old | ⟨here, own⟩
    · exact old
    · exact ⟨before, here ▸ reading, works.trans (same.symm.trans own)⟩
  have outcome := moves state input
  generalize (state.step input).1 = after at outcome owned
  cases outcome with
  | stays same _ =>
    unfold Owned at owned ⊢
    rw [same.readings] at owned
    exact .inl owned
  | accepts free =>
    rcases owned.of_goTo with old | ⟨_, impossible⟩
    · exact .inl old
    · cases impossible
  | registers reading =>
    rcases owned.of_goTo with old | ⟨here, works⟩
    · exact .inl old
    · cases works
      exact .inr ⟨_, _, _, rfl, reading, rfl⟩
  | goesOn reading works same _ _ => exact .inl (goesOn reading works same owned)
  | admits reading _ | subscribes reading | unsubscribes reading | leaves reading =>
    exact .inl (goesOn reading rfl rfl owned)
  | forgets reading =>
    rcases owned.of_goTo with old | ⟨_, impossible⟩
    · exact .inl old
    · cases impossible
  | visits same _ =>
    unfold Owned at owned ⊢
    rw [same.readings] at owned
    exact .inl owned
  | publishes _ | takes _ _ _ | sends _ _ => exact .inl owned

theorem accepting_before {ref : ConnRef} {userId : UserId} {workspaceId : WorkspaceId}
    {input : Input Body}
    (current : (state.step input).1.readings ref = some (.accepting userId workspaceId)) :
    state.readings ref = some (.accepting userId workspaceId) ∨
      ∃ ids, input = .fetchVisible ref userId workspaceId (some ids) ∧
        state.readings ref = none ∧ (state.step input).1.caches ref = ids.toFinset := by
  have goesOn : ∀ {other : ConnRef} {next : Reading Body} {earlier : State Body},
      (State.goTo earlier other next).readings ref = some (.accepting userId workspaceId) ->
        earlier.readings = state.readings -> next ≠ .accepting userId workspaceId ->
          state.readings ref = some (.accepting userId workspaceId) := by
    intro other next earlier current same different
    by_cases here : ref = other
    · subst here
      rw [State.goTo_same] at current
      exact False.elim (different (Option.some_inj.mp current))
    · rw [State.goTo_other _ _ here, same] at current
      exact current
  have outcome := moves state input
  generalize (state.step input).1 = after at outcome current
  cases outcome with
  | stays same _ => exact .inl (same.readings ▸ current)
  | @accepts other person place ids free =>
    rcases State.goTo_cases current with ⟨rfl, stands⟩ | ⟨here, current⟩
    · cases stands
      exact .inr ⟨ids, rfl, free, State.setCache_same _ _ _⟩
    · exact .inl current
  | registers reading => exact .inl (goesOn current rfl nofun)
  | goesOn reading works same _ _ =>
    refine .inl (goesOn current rfl ?_)
    rintro rfl
    cases same
  | admits reading _ | subscribes reading | unsubscribes reading | leaves reading
  | forgets reading => exact .inl (goesOn current rfl nofun)
  | visits same _ => exact .inl (same.readings ▸ current)
  | publishes _ | takes _ _ _ | sends _ _ => exact .inl current

structure Identified (state : State Body) : Prop where
  registered : ∀ id conn, state.registry.get id = some conn -> conn.id = id ∧ Owned state conn
  live : ∀ ref reading conn, state.readings ref = some reading -> reading.conn = some conn ->
    conn.ref = ref ∧ Named conn.userId conn.id
  accepting : ∀ ref userId workspaceId,
    state.readings ref = some (.accepting userId workspaceId) ->
      ∃ user : UUID, userId = user.text
  indexed : ∀ userId id, id ∈ state.registry.byUser.values userId -> Named userId id

def FromCore : Input Body -> Prop
  | .fetchVisible _ userId _ _ => ∃ user : UUID, userId = user.text
  | _ => True

theorem Registry.mem_connsByUser {registry : Registry} {userId : UserId} :
    conn ∈ registry.connsByUser userId <->
      ∃ id ∈ registry.byUser.values userId, registry.get id = some conn := by
  unfold Registry.connsByUser Registry.get
  simp only [Finset.mem_biUnion, Option.mem_toFinset, Option.mem_def]

namespace Identified

theorem initially : Identified ({} : State Body) where
  registered := fun _ _ impossible => by cases impossible
  live := fun _ _ _ impossible => by cases impossible
  accepting := fun _ _ _ impossible => by cases impossible
  indexed := fun _ id impossible => False.elim (Finset.notMem_empty id impossible)

theorem of_mem_connsByUser (identified : Identified state) {userId : UserId} {conn : Conn}
    (member : conn ∈ state.registry.connsByUser userId) :
    conn.userId = userId ∧ Owned state conn := by
  rcases Registry.mem_connsByUser.mp member with ⟨id, indexed, get⟩
  have ⟨named, owned⟩ := identified.registered id conn get
  rcases owned with ⟨reading, current, works⟩
  have ⟨_, own⟩ := identified.live conn.ref reading conn current works
  exact ⟨own.unique (named ▸ identified.indexed userId id indexed), reading, current, works⟩

theorem congr {after : State Body} (identified : Identified state)
    (registry : after.registry = state.registry) (readings : after.readings = state.readings) :
    Identified after := by
  constructor
  · unfold Owned
    rw [registry, readings]
    exact identified.registered
  · rw [readings]
    exact identified.live
  · rw [readings]
    exact identified.accepting
  · rw [registry]
    exact identified.indexed

theorem withSubs (identified : Identified state) (subs : Subscription) :
    Identified { state with subs } :=
  identified.congr rfl rfl

theorem goesOn (identified : Identified state) {ref : ConnRef} {before next : Reading Body}
    {conn : Conn} (reading : state.readings ref = some before) (works : before.conn = some conn)
    (same : next.conn = some conn) : Identified (state.goTo ref next) := by
  constructor
  · intro id other get
    have ⟨named, current, currentAt, currentOf⟩ := identified.registered id other get
    refine ⟨named, ?_⟩
    by_cases here : other.ref = ref
    · rw [here, reading] at currentAt
      cases currentAt
      exact ⟨next, here ▸ State.goTo_same _ _ _, same.trans (works.symm.trans currentOf)⟩
    · exact ⟨current, (State.goTo_other _ _ here).trans currentAt, currentOf⟩
  · intro other current owner currentAt currentOf
    rcases State.goTo_cases currentAt with ⟨rfl, stands⟩ | ⟨here, currentAt⟩
    · cases stands
      exact identified.live other before owner reading (works.trans (same.symm.trans currentOf))
    · exact identified.live other current owner currentAt currentOf
  · intro other userId workspaceId currentAt
    rcases State.goTo_cases currentAt with ⟨rfl, stands⟩ | ⟨here, currentAt⟩
    · cases stands
      cases same
    · exact identified.accepting other userId workspaceId currentAt
  · exact identified.indexed

theorem accepts (identified : Identified state) {ref : ConnRef} (free : state.readings ref = none)
    (user : UUID) (workspaceId : WorkspaceId) (cache : Cache) :
    Identified ((state.setCache ref cache).goTo ref (.accepting user.text workspaceId)) := by
  have absent : ∀ other reading, state.readings other = some reading -> other ≠ ref := by
    intro other reading current same
    rw [same, free] at current
    cases current
  constructor
  · intro id conn get
    have ⟨named, reading, current, works⟩ := identified.registered id conn get
    exact ⟨named, reading, (State.goTo_other _ _ (absent _ _ current)).trans current, works⟩
  · intro other reading conn current works
    rcases State.goTo_cases current with ⟨rfl, stands⟩ | ⟨here, current⟩
    · cases stands
      cases works
    · exact identified.live other reading conn current works
  · intro other userId place current
    rcases State.goTo_cases current with ⟨rfl, stands⟩ | ⟨here, current⟩
    · cases stands
      exact ⟨user, rfl⟩
    · exact identified.accepting other userId place current
  · exact identified.indexed

theorem registers (identified : Identified state) {ref : ConnRef} {userId : UserId}
    {workspaceId : WorkspaceId} {startedAt : String}
    (reading : state.readings ref = some (.accepting userId workspaceId)) : Identified (State.goTo
      { state with registry := state.registry.add (connection ref userId workspaceId startedAt) }
      ref (.idle (connection ref userId workspaceId startedAt))) := by
  rcases identified.accepting ref userId workspaceId reading with ⟨user, text⟩
  have named : Named userId (connection ref userId workspaceId startedAt).id :=
    ⟨user, startedAt, text, rfl⟩
  constructor
  · intro id conn get
    obtain ⟨rfl, rfl⟩ | old := Registry.get_of_add get
    · exact ⟨rfl, _, State.goTo_same _ _ _, rfl⟩
    · have ⟨same, current, currentAt, works⟩ := identified.registered id conn old
      refine ⟨same, current, (State.goTo_other _ _ ?_).trans currentAt, works⟩
      intro there
      rw [there, reading] at currentAt
      cases currentAt
      cases works
  · intro other current conn currentAt works
    rcases State.goTo_cases currentAt with ⟨rfl, stands⟩ | ⟨here, currentAt⟩
    · cases stands
      cases works
      exact ⟨rfl, named⟩
    · exact identified.live other current conn currentAt works
  · intro other person place currentAt
    rcases State.goTo_cases currentAt with ⟨rfl, stands⟩ | ⟨here, currentAt⟩
    · cases stands
    · exact identified.accepting other person place currentAt
  · intro person id member
    change id ∈ SetMap.values (if userId = "" then state.registry.byUser
      else state.registry.byUser.add userId _) person at member
    split at member
    · exact identified.indexed person id member
    · rcases SetMap.mem_values_add.mp member with old | ⟨own, same⟩
      · exact identified.indexed person id old
      · exact own ▸ same ▸ named

theorem forgets (identified : Identified state) {ref : ConnRef} {conn : Conn}
    (reading : state.readings ref = some (.left conn)) :
    Identified ({ state with registry := state.registry.remove conn.id }.goTo ref .closed) := by
  constructor
  · intro id other get
    obtain ⟨here, old⟩ := Registry.get_of_remove get
    have ⟨same, current, currentAt, works⟩ := identified.registered id other old
    refine ⟨same, current, (State.goTo_other _ _ ?_).trans currentAt, works⟩
    intro there
    rw [there, reading] at currentAt
    cases currentAt
    cases works
    exact here same.symm
  · intro other current owner currentAt works
    rcases State.goTo_cases currentAt with ⟨rfl, stands⟩ | ⟨here, currentAt⟩
    · cases stands
      cases works
    · exact identified.live other current owner currentAt works
  · intro other userId workspaceId currentAt
    rcases State.goTo_cases currentAt with ⟨rfl, stands⟩ | ⟨here, currentAt⟩
    · cases stands
    · exact identified.accepting other userId workspaceId currentAt
  · intro userId id member
    refine identified.indexed userId id ?_
    change id ∈ (state.registry.remove conn.id).byUser.values userId at member
    unfold Registry.remove at member
    split at member
    · exact member
    · split at member
      · exact member
      · exact (SetMap.mem_values_delete.mp member).1

theorem step (identified : Identified state) {input : Input Body} (fromCore : FromCore input) :
    Identified (state.step input).1 := by
  have outcome := moves state input
  generalize (state.step input).1 = after at outcome
  cases outcome with
  | stays same _ => exact identified.congr same.registry same.readings
  | accepts free =>
    rcases fromCore with ⟨user, rfl⟩
    exact identified.accepts free user _ _
  | registers reading => exact identified.registers reading
  | goesOn reading works same _ _ => exact identified.goesOn reading works same
  | admits reading _ => exact identified.goesOn reading rfl rfl
  | subscribes reading | unsubscribes reading | leaves reading =>
    exact (identified.withSubs _).goesOn reading rfl rfl
  | forgets reading => exact identified.forgets reading
  | visits same _ => exact identified.congr same.registry same.readings
  | publishes _ | takes _ _ _ | sends _ _ => exact identified.congr rfl rfl

end Identified

end Relay
end BreadMind
