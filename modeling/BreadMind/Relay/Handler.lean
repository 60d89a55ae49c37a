import BreadMind.Execution.Machine
import BreadMind.Relay.Session
import Mathlib.Data.Finset.Sort
import Mathlib.Data.String.Basic

namespace BreadMind
namespace Relay

open Execution

/-!
# The relay

Three kinds of goroutine share the relay's state: one read loop for each
connection, one subscriber of ACL invalidations and one fan-out of channel
events.  Each call that takes a lock of the shared state, and each frame
written, is a step of its own.  An input names the goroutine which moves next
and supplies what it is told from outside: the answer of the core, the next
envelope of the client, the next event of the bus.  Map iteration order is
left to the input as well.

The body of an event is arbitrary; the relay passes it on without reading
more than its channel.
-/

abbrev Cache := Finset ChannelId

variable (cache : Cache)

/-- `Add`: the new set and whether the channel is new in it. -/
def Cache.add (channel : ChannelId) : Cache × Bool :=
  if channel ∈ cache then (cache, false) else (insert channel cache, true)

def Cache.remove (channel : ChannelId) : Cache × Bool :=
  if channel ∈ cache then (cache.erase channel, true) else (cache, false)

/-- `Replace`: the new set, the added and the removed channels. -/
def Cache.replace (ids : List ChannelId) : Cache × Finset ChannelId × Finset ChannelId :=
  (ids.toFinset, ids.toFinset \ cache, cache \ ids.toFinset)

theorem Cache.mem_add {cache : Cache} {channel target : ChannelId} :
    channel ∈ (cache.add target).1 <-> channel = target ∨ channel ∈ cache := by
  unfold Cache.add
  split
  · rename_i held
    refine (or_iff_right_of_imp ?_).symm
    rintro rfl
    exact held
  · exact Finset.mem_insert

theorem Cache.mem_remove {cache : Cache} {channel target : ChannelId} :
    channel ∈ (cache.remove target).1 <-> channel ≠ target ∧ channel ∈ cache := by
  unfold Cache.remove
  split
  · exact Finset.mem_erase
  · rename_i absent
    refine (and_iff_right_of_imp ?_).symm
    rintro held rfl
    exact absent held

inductive ClientEnvelope where
  | subscribe (channelIds : List ChannelId) (channelResume : List Int)
  | unsubscribe (channelIds : List ChannelId)
  | ping
  | typing (channelId : ChannelId)
  /-- An unknown type, or an envelope which does not parse. -/
  | other

def resumePairs (channelIds : List ChannelId) (channelResume : List Int) : List (ChannelId × Int) :=
  channelIds.mapIdx fun index channel => (channel, channelResume.getD index 0)

inductive AclOp where
  | add
  | remove
  deriving DecidableEq

inductive AclEvent where
  | kindA (userId : UserId)
  | kindB (userId : UserId) (channelId : ChannelId) (op : AclOp)

def AclEvent.userId : AclEvent -> UserId
  | .kindA userId => userId
  | .kindB userId _ _ => userId

variable (Body : Type)

structure BusPayload where
  channelId : ChannelId
  body : Body

inductive Frame where
  | error (code message : String)
  | backfill (channelId : ChannelId) (event : Body)
  | subscribed (channelIds : List ChannelId)
  | pong
  | revoked (channelId : ChannelId) (reason : String)
  | granted (channelId : ChannelId)
  | live (payload : BusPayload Body)

/-! ## Goroutines -/

inductive Reading where
  /-- The visible channels are fetched and the connection is not registered. -/
  | accepting (userId : UserId) (workspaceId : WorkspaceId)
  | idle (conn : Conn)
  | subscribing (conn : Conn) (todo : List (ChannelId × Int)) (accepted : List ChannelId)
  /-- The channel passed the gate and its history was not asked for yet. -/
  | admitted (conn : Conn) (channel : ChannelId) (since : Int) (todo : List (ChannelId × Int))
      (accepted : List ChannelId)
  | replaying (conn : Conn) (channel : ChannelId) (since : Int) (events : List Body)
      (todo : List (ChannelId × Int)) (accepted : List ChannelId)
  | unsubscribing (conn : Conn) (todo : List ChannelId)
  /-- The loop has ended and removed its subscriptions. -/
  | left (conn : Conn)
  | closed

structure Invalidation where
  event : AclEvent
  pending : Finset Conn
  fetched : Option (Conn × List ChannelId) := none

structure FanOut where
  payload : BusPayload Body
  pending : Finset ConnId
  holding : Option Conn := none

structure State where
  registry : Registry := {}
  subs : Subscription := {}
  caches : ConnRef -> Cache := fun _ => ∅
  readings : ConnRef -> Option (Reading Body) := fun _ => none
  invalidating : Option Invalidation := none
  fanningOut : Option (FanOut Body) := none

inductive Input where
  /-- A new connection is told its visible channels, or that there was an error. -/
  | fetchVisible (ref : ConnRef) (userId : UserId) (workspaceId : WorkspaceId)
      (visible : Option (List ChannelId))
  | register (ref : ConnRef) (startedAt : String)
  | receive (ref : ConnRef) (envelope : ClientEnvelope)
  /-- The next step of a handler; `history` is the answer of `BackfillSince`. -/
  | proceed (ref : ConnRef) (history : Option (List Body))
  | leave (ref : ConnRef)
  | forget (ref : ConnRef)
  | invalidate (event : AclEvent)
  | refetch (conn : Conn) (visible : Option (List ChannelId))
  | visit (conn : Conn)
  | publish (payload : BusPayload Body)
  | take (id : ConnId)
  | send

variable {Body}

/-- The frames of one step, each with the connection it is written to. -/
abbrev Frames (Body : Type) := List (ConnRef × Frame Body)

def connection (ref : ConnRef) (userId : UserId) (workspaceId : WorkspaceId) (startedAt : String) :
    Conn :=
  { ref, id := userId ++ ":" ++ startedAt, userId, workspaceId }

namespace State

def goTo (state : State Body) (ref : ConnRef) (reading : Reading Body) : State Body :=
  { state with readings := Function.update state.readings ref (some reading) }

def setCache (state : State Body) (ref : ConnRef) (cache : Cache) : State Body :=
  { state with caches := Function.update state.caches ref cache }

theorem setCache_same (state : State Body) (ref : ConnRef) (cache : Cache) :
    (state.setCache ref cache).caches ref = cache :=
  Function.update_self _ _ _

theorem setCache_other (state : State Body) {ref other : ConnRef} (cache : Cache)
    (different : other ≠ ref) : (state.setCache ref cache).caches other = state.caches other :=
  Function.update_of_ne different _ _

theorem goTo_same (state : State Body) (ref : ConnRef) (reading : Reading Body) :
    (state.goTo ref reading).readings ref = some reading :=
  Function.update_self _ _ _

theorem goTo_other (state : State Body) {ref other : ConnRef} (reading : Reading Body)
    (different : other ≠ ref) : (state.goTo ref reading).readings other = state.readings other :=
  Function.update_of_ne different _ _

theorem goTo_cases {state : State Body} {ref other : ConnRef} {next reading : Reading Body}
    (current : (state.goTo ref next).readings other = some reading) :
    (other = ref ∧ reading = next) ∨ (other ≠ ref ∧ state.readings other = some reading) := by
  by_cases here : other = ref
  · rw [here, goTo_same] at current
    exact .inl ⟨here, (Option.some.inj current).symm⟩
  · exact .inr ⟨here, (goTo_other state next here).symm.trans current⟩

def receive (state : State Body) (ref : ConnRef) (conn : Conn) :
    ClientEnvelope -> State Body × Frames Body
  | .subscribe channelIds channelResume =>
    (state.goTo ref (.subscribing conn (resumePairs channelIds channelResume) []), [])
  | .unsubscribe channelIds => (state.goTo ref (.unsubscribing conn channelIds), [])
  | .ping => (state, [(ref, .pong)])
  -- The typing mark is kept in Redis and not in the relay.
  | .typing _ => (state, [])
  | .other => (state, [])

/-- One step of handling an envelope. -/
def proceed (state : State Body) (ref : ConnRef) (history : Option (List Body)) :
    Reading Body -> State Body × Frames Body
  | .subscribing conn [] accepted => (state.goTo ref (.idle conn), [(ref, .subscribed accepted)])
  | .subscribing conn ((channel, since) :: todo) accepted =>
    if channel ∈ state.caches ref then
      (state.goTo ref (.admitted conn channel since todo accepted), [])
    else
      (state.goTo ref (.subscribing conn todo accepted),
        [(ref, .error "acl_denied" ("not a member of channel " ++ channel))])
  | .admitted conn channel since todo accepted =>
    let events := if 0 < since then history.getD [] else []
    (state.goTo ref (.replaying conn channel since events todo accepted), [])
  | .replaying conn channel since (event :: events) todo accepted =>
    (state.goTo ref (.replaying conn channel since events todo accepted),
      [(ref, .backfill channel event)])
  | .replaying conn channel _ [] todo accepted =>
    ({ state with subs := state.subs.subscribe conn.id channel }.goTo ref
      (.subscribing conn todo (accepted ++ [channel])), [])
  | .unsubscribing conn [] => (state.goTo ref (.idle conn), [])
  | .unsubscribing conn (channel :: todo) =>
    ({ state with subs := state.subs.unsubscribe conn.id channel }.goTo ref
      (.unsubscribing conn todo), [])
  | _ => (state, [])

def visited (state : State Body) (task : Invalidation) (conn : Conn) : State Body :=
  let rest := task.pending.erase conn
  { state with
    invalidating := if rest = ∅ then none else some { task with pending := rest, fetched := none } }

def visit (state : State Body) (task : Invalidation) (conn : Conn) : State Body × Frames Body :=
  match task.event with
  | .kindB _ channel .remove =>
    let (cache, changed) := (state.caches conn.ref).remove channel
    ((state.setCache conn.ref cache).visited task conn,
      if changed then [(conn.ref, .revoked channel "acl_revoked")] else [])
  | .kindB _ channel .add =>
    let (cache, changed) := (state.caches conn.ref).add channel
    ((state.setCache conn.ref cache).visited task conn,
      if changed then [(conn.ref, .granted channel)] else [])
  | .kindA _ =>
    match task.fetched with
    | none => (state, [])
    | some (target, ids) =>
      if target = conn then
        let (cache, added, removed) := (state.caches conn.ref).replace ids
        -- The source reports the two parts in map order.
        ((state.setCache conn.ref cache).visited task conn,
          (added.sort (· ≤ ·)).map (fun channel => (conn.ref, .granted channel)) ++
            (removed.sort (· ≤ ·)).map (fun channel => (conn.ref, .revoked channel "acl_revoked")))
      else (state, [])

/-- The answer to the refetch for one connection; after an error the
connection keeps the cache it has. -/
def refetched (state : State Body) (task : Invalidation) (conn : Conn) :
    Option (List ChannelId) -> State Body
  | none => state.visited task conn
  | some ids => { state with invalidating := some { task with fetched := some (conn, ids) } }

/-- Go on with a fan-out, or end it when no subscriber is left. -/
def fanOut (state : State Body) (task : FanOut Body) : State Body :=
  { state with
    fanningOut := if task.pending = ∅ ∧ task.holding = none then none else some task }

def step (state : State Body) : Input Body -> State Body × Frames Body
  | .fetchVisible ref userId workspaceId visible =>
    match state.readings ref, visible with
    | none, some ids =>
      ((state.setCache ref ids.toFinset).goTo ref (.accepting userId workspaceId), [])
    | _, _ => (state, [])
  | .register ref startedAt =>
    match state.readings ref with
    | some (.accepting userId workspaceId) =>
      let conn := connection ref userId workspaceId startedAt
      ({ state with registry := state.registry.add conn }.goTo ref (.idle conn), [])
    | _ => (state, [])
  | .receive ref envelope =>
    match state.readings ref with
    | some (.idle conn) => state.receive ref conn envelope
    | _ => (state, [])
  | .proceed ref history =>
    match state.readings ref with
    | some reading => state.proceed ref history reading
    | none => (state, [])
  | .leave ref =>
    match state.readings ref with
    | some (.idle conn) =>
      ({ state with subs := state.subs.removeAll conn.id }.goTo ref (.left conn), [])
    | _ => (state, [])
  | .forget ref =>
    match state.readings ref with
    | some (.left conn) =>
      ({ state with registry := state.registry.remove conn.id }.goTo ref .closed, [])
    | _ => (state, [])
  | .invalidate event =>
    match state.invalidating with
    | none =>
      let conns := state.registry.connsByUser event.userId
      if conns = ∅ then (state, [])
      else ({ state with invalidating := some { event, pending := conns } }, [])
    | some _ => (state, [])
  | .refetch conn visible =>
    match state.invalidating with
    | some task =>
      match task.event, task.fetched with
      | .kindA _, none =>
        if conn ∈ task.pending then (state.refetched task conn visible, []) else (state, [])
      | _, _ => (state, [])
    | none => (state, [])
  | .visit conn =>
    match state.invalidating with
    | some task => if conn ∈ task.pending then state.visit task conn else (state, [])
    | none => (state, [])
  | .publish payload =>
    match state.fanningOut with
    | none =>
      if payload.channelId = "" then (state, [])
      else (state.fanOut { payload, pending := state.subs.subscribers payload.channelId }, [])
    | some _ => (state, [])
  | .take id =>
    match state.fanningOut with
    | some task =>
      if id ∈ task.pending ∧ task.holding = none then
        (state.fanOut { task with
          pending := task.pending.erase id, holding := state.registry.get id }, [])
      else (state, [])
    | none => (state, [])
  | .send =>
    match state.fanningOut with
    | some task =>
      match task.holding with
      | some conn => (state.fanOut { task with holding := none }, [(conn.ref, .live task.payload)])
      | none => (state, [])
    | none => (state, [])

end State

def relayMachine (Body : Type) : Machine (State Body) (Input Body) where
  initial := {}
  step := fun state input => (state.step input).1

/-! ## What one step can do -/

def Reading.conn : Reading Body -> Option Conn
  | .idle conn => some conn
  | .subscribing conn _ _ => some conn
  | .admitted conn _ _ _ _ => some conn
  | .replaying conn _ _ _ _ _ => some conn
  | .unsubscribing conn _ => some conn
  | .left conn => some conn
  | .accepting _ _ => none
  | .closed => none

/-- The channel that passed the gate and is not subscribed yet. -/
def Reading.gated : Reading Body -> Option ChannelId
  | .admitted _ channel _ _ _ => some channel
  | .replaying _ channel _ _ _ _ => some channel
  | _ => none

def Reading.hasLeft : Reading Body -> Bool
  | .left _ => true
  | _ => false

structure SameDelivery (state after : State Body) : Prop where
  registry : after.registry = state.registry
  subs : after.subs = state.subs
  readings : after.readings = state.readings
  fanningOut : after.fanningOut = state.fanningOut

inductive Moves (state : State Body) : Input Body -> State Body -> Prop where
  | stays {input : Input Body} {after : State Body} (same : SameDelivery state after)
      (caches : after.caches = state.caches) : Moves state input after
  | accepts {ref : ConnRef} {userId : UserId} {workspaceId : WorkspaceId} {ids : List ChannelId}
      (free : state.readings ref = none) :
      Moves state (.fetchVisible ref userId workspaceId (some ids))
        ((state.setCache ref ids.toFinset).goTo ref (.accepting userId workspaceId))
  | registers {ref : ConnRef} {startedAt : String} {userId : UserId} {workspaceId : WorkspaceId}
      (reading : state.readings ref = some (.accepting userId workspaceId)) :
      Moves state (.register ref startedAt)
        ({ state with registry :=
            state.registry.add (connection ref userId workspaceId startedAt) }.goTo ref
          (.idle (connection ref userId workspaceId startedAt)))
  /-- A read loop goes on without touching anything shared. -/
  | goesOn {input : Input Body} {ref : ConnRef} {before next : Reading Body} {conn : Conn}
      (reading : state.readings ref = some before) (works : before.conn = some conn)
      (same : next.conn = some conn)
      (stays : next.hasLeft = false) (gate : next.gated = none ∨ next.gated = before.gated) :
      Moves state input (state.goTo ref next)
  | admits {ref : ConnRef} {history : Option (List Body)} {conn : Conn} {channel : ChannelId}
      {since : Int} {todo : List (ChannelId × Int)} {accepted : List ChannelId}
      (reading : state.readings ref = some (.subscribing conn ((channel, since) :: todo) accepted))
      (visible : channel ∈ state.caches ref) :
      Moves state (.proceed ref history) (state.goTo ref (.admitted conn channel since todo accepted))
  | subscribes {ref : ConnRef} {history : Option (List Body)} {conn : Conn} {channel : ChannelId}
      {since : Int} {todo : List (ChannelId × Int)} {accepted : List ChannelId}
      (reading : state.readings ref = some (.replaying conn channel since [] todo accepted)) :
      Moves state (.proceed ref history)
        ({ state with subs := state.subs.subscribe conn.id channel }.goTo ref
          (.subscribing conn todo (accepted ++ [channel])))
  | unsubscribes {ref : ConnRef} {history : Option (List Body)} {conn : Conn} {channel : ChannelId}
      {todo : List ChannelId}
      (reading : state.readings ref = some (.unsubscribing conn (channel :: todo))) :
      Moves state (.proceed ref history)
        ({ state with subs := state.subs.unsubscribe conn.id channel }.goTo ref
          (.unsubscribing conn todo))
  | leaves {ref : ConnRef} {conn : Conn} (reading : state.readings ref = some (.idle conn)) :
      Moves state (.leave ref)
        ({ state with subs := state.subs.removeAll conn.id }.goTo ref (.left conn))
  | forgets {ref : ConnRef} {conn : Conn} (reading : state.readings ref = some (.left conn)) :
      Moves state (.forget ref)
        ({ state with registry := state.registry.remove conn.id }.goTo ref .closed)
  | visits {conn : Conn} {cache : Cache} {after : State Body} (same : SameDelivery state after)
      (caches : after.caches = Function.update state.caches conn.ref cache) :
      Moves state (.visit conn) after
  | publishes {payload : BusPayload Body} (free : state.fanningOut = none) :
      Moves state (.publish payload)
        (state.fanOut { payload, pending := state.subs.subscribers payload.channelId })
  | takes {id : ConnId} {task : FanOut Body} (running : state.fanningOut = some task)
      (pending : id ∈ task.pending) (free : task.holding = none) :
      Moves state (.take id) (state.fanOut { task with
        pending := task.pending.erase id, holding := state.registry.get id })
  | sends {task : FanOut Body} {conn : Conn} (running : state.fanningOut = some task)
      (held : task.holding = some conn) :
      Moves state .send (state.fanOut { task with holding := none })

theorem Moves.idles (state : State Body) (input : Input Body) : Moves state input state :=
  .stays ⟨rfl, rfl, rfl, rfl⟩ rfl

theorem moves_proceed (state : State Body) (ref : ConnRef) (history : Option (List Body))
    {reading : Reading Body} (at_ : state.readings ref = some reading) :
    Moves state (.proceed ref history) (state.proceed ref history reading).1 := by
  cases reading with
  | subscribing conn todo accepted =>
    cases todo with
    | nil => exact .goesOn at_ rfl rfl rfl (.inl rfl)
    | cons first todo =>
      rcases first with ⟨channel, since⟩
      unfold State.proceed
      dsimp only
      by_cases visible : channel ∈ state.caches ref
      · rw [if_pos visible]
        exact .admits at_ visible
      · rw [if_neg visible]
        exact .goesOn at_ rfl rfl rfl (.inl rfl)
  | admitted conn channel since todo accepted => exact .goesOn at_ rfl rfl rfl (.inr rfl)
  | replaying conn channel since events todo accepted =>
    cases events with
    | nil => exact .subscribes at_
    | cons event events => exact .goesOn at_ rfl rfl rfl (.inr rfl)
  | unsubscribing conn todo =>
    cases todo with
    | nil => exact .goesOn at_ rfl rfl rfl (.inl rfl)
    | cons channel todo => exact .unsubscribes at_
  | accepting userId workspaceId | idle conn | left conn | closed => exact .idles _ _

theorem moves_visit (state : State Body) (task : Invalidation) (conn : Conn) :
    Moves state (.visit conn) (state.visit task conn).1 := by
  unfold State.visit
  cases task.event with
  | kindB userId channel op =>
    cases op with
    | add => exact .visits ⟨rfl, rfl, rfl, rfl⟩ rfl
    | remove => exact .visits ⟨rfl, rfl, rfl, rfl⟩ rfl
  | kindA userId =>
    cases task.fetched with
    | none => exact .idles _ _
    | some fetched =>
      dsimp only
      split
      · exact .visits ⟨rfl, rfl, rfl, rfl⟩ rfl
      · exact .idles _ _

theorem moves (state : State Body) (input : Input Body) : Moves state input (state.step input).1 := by
  cases input with
  | fetchVisible ref userId workspaceId visible =>
    unfold State.step
    dsimp only
    split
    · rename_i free
      exact .accepts free
    · exact .idles _ _
  | register ref startedAt =>
    unfold State.step
    dsimp only
    split
    · rename_i reading
      exact .registers reading
    · exact .idles _ _
  | receive ref envelope =>
    unfold State.step
    dsimp only
    split
    · rename_i reading
      cases envelope with
      | subscribe channelIds channelResume => exact .goesOn reading rfl rfl rfl (.inl rfl)
      | unsubscribe channelIds => exact .goesOn reading rfl rfl rfl (.inl rfl)
      | ping | typing channelId | other => exact .idles _ _
    · exact .idles _ _
  | proceed ref history =>
    unfold State.step
    dsimp only
    split
    · rename_i reading
      exact moves_proceed state ref history reading
    · exact .idles _ _
  | leave ref =>
    unfold State.step
    dsimp only
    split
    · rename_i reading
      exact .leaves reading
    · exact .idles _ _
  | forget ref =>
    unfold State.step
    dsimp only
    split
    · rename_i reading
      exact .forgets reading
    · exact .idles _ _
  | invalidate event =>
    unfold State.step
    dsimp only
    split
    · split
      · exact .idles _ _
      · exact .stays ⟨rfl, rfl, rfl, rfl⟩ rfl
    · exact .idles _ _
  | refetch conn visible =>
    unfold State.step
    dsimp only
    split
    · split
      · split
        · cases visible <;> exact .stays ⟨rfl, rfl, rfl, rfl⟩ rfl
        · exact .idles _ _
      · exact .idles _ _
    · exact .idles _ _
  | visit conn =>
    unfold State.step
    dsimp only
    split
    · split
      · exact moves_visit _ _ _
      · exact .idles _ _
    · exact .idles _ _
  | publish payload =>
    unfold State.step
    dsimp only
    split
    · rename_i free
      split
      · exact .idles _ _
      · exact .publishes free
    · exact .idles _ _
  | take id =>
    unfold State.step
    dsimp only
    split
    · rename_i running
      split
      · rename_i chosen
        exact .takes running chosen.1 chosen.2
      · exact .idles _ _
    · exact .idles _ _
  | send =>
    unfold State.step
    dsimp only
    split
    · rename_i running
      split
      · rename_i held
        exact .sends running held
      · exact .idles _ _
    · exact .idles _ _

variable {state : State Body}

theorem caches_step (input : Input Body) {ref : ConnRef}
    {reading : Reading Body} (current : state.readings ref = some reading) :
    (state.step input).1.caches ref = state.caches ref ∨
      ∃ conn, input = .visit conn ∧ conn.ref = ref := by
  have outcome := moves state input
  generalize (state.step input).1 = after at outcome
  cases outcome with
  | stays same caches => exact .inl (congrFun caches ref)
  | @accepts other userId workspaceId ids free =>
    refine .inl (Function.update_of_ne ?_ _ _)
    intro same
    rw [same, free] at current
    cases current
  | @visits conn cache after same caches =>
    by_cases here : conn.ref = ref
    · exact .inr ⟨conn, rfl, here⟩
    · refine Or.inl ?_
      rw [caches]
      exact Function.update_of_ne (fun same => here same.symm) _ _
  | _ => exact .inl rfl

def Input.invalidates : Input Body -> Bool
  | .invalidate _ => true
  | .refetch _ _ => true
  | .visit _ => true
  | _ => false

theorem invalidating_step {input : Input Body} (other : input.invalidates = false) :
    (state.step input).1.invalidating = state.invalidating := by
  cases input with
  | fetchVisible ref userId workspaceId visible | register ref startedAt =>
    unfold State.step
    dsimp only
    split <;> rfl
  | receive ref envelope =>
    unfold State.step
    dsimp only
    split
    · cases envelope <;> rfl
    · rfl
  | proceed ref history =>
    unfold State.step
    dsimp only
    split
    · unfold State.proceed
      split <;> try split
      all_goals rfl
    · rfl
  | leave ref | forget ref =>
    unfold State.step
    dsimp only
    split <;> rfl
  | invalidate event | refetch conn visible | visit conn => cases other
  | publish payload | take id | send =>
    unfold State.step
    dsimp only
    split
    · split <;> rfl
    · rfl

end Relay
end BreadMind
