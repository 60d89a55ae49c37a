import BreadMind.Relay.Registration
import Mathlib.Data.List.Nodup

namespace BreadMind
namespace Relay

open Execution
open Function (update_of_ne update_self)

/-!
# From the start of a connection to its end

A connection is registered under an identifier made of its user and its starting
time, and taken out again by that identifier.  While it lives it is found under
it, and once among the connections of its user.  Two connections of one user that
start at one reading of the clock get one identifier.
-/

variable {Body : Type} {state : State Body}

/-- `ConnsByUser`, with the order of its loop. -/
def Registry.connsByUserIn (registry : Registry) (order : List ConnId) : List Conn :=
  order.filterMap fun id => registry.conns id

/-- While a connection lives it is registered, and listed for its own user only. -/
def Reachable (state : State Body) : Prop :=
  ∀ ref reading conn, state.readings ref = some reading -> reading.conn = some conn ->
    state.registry.get conn.id = some conn ∧
      (∀ order, Visits order (state.registry.byUser.values conn.userId) ->
        (state.registry.connsByUserIn order).count conn = 1) ∧
      ∀ userId order, userId ≠ conn.userId ->
        Visits order (state.registry.byUser.values userId) ->
          conn ∉ state.registry.connsByUserIn order

/-- What is kept for the connection is the same after the step. -/
structure Untouched (state after : State Body) (conn : Conn) : Prop where
  registered : after.registry.get conn.id = state.registry.get conn.id
  listed : ∀ userId, conn.id ∈ after.registry.byUser.values userId <->
    conn.id ∈ state.registry.byUser.values userId
  channels : after.subs.connToChans conn.id = state.subs.connToChans conn.id
  subscriptions : ∀ channel, conn.id ∈ after.subs.subscribers channel <->
    conn.id ∈ state.subs.subscribers channel

/-- The end of a connection takes nothing from another one. -/
def EndsAlone (state : State Body) (input : Input Body) : Prop :=
  ∀ ref, input = .leave ref ∨ input = .forget ref -> ∀ other reading conn, other ≠ ref ->
    state.readings other = some reading -> reading.conn = some conn ->
      Untouched state (state.step input).1 conn

/-- A new connection has a user, and an identifier which no other one has. -/
def StartsApart (state : State Body) (input : Input Body) : Prop :=
  Unregistered state input ∧
    match input with
    | .register ref _ => ∀ userId workspaceId,
        state.readings ref = some (.accepting userId workspaceId) -> userId ≠ ""
    | _ => True

/-! ## The index by user -/

/-- The second index has what the first one has, by user. -/
def Listed (registry : Registry) : Prop :=
  ∀ userId id, id ∈ registry.byUser.values userId <->
    ∃ conn, registry.get id = some conn ∧ conn.userId = userId

theorem listed_add {registry : Registry} (listed : Listed registry) {conn : Conn}
    (named : conn.userId ≠ "") (fresh : registry.get conn.id = none) :
    Listed (registry.add conn) := by
  have index : (registry.add conn).byUser = registry.byUser.add conn.userId conn.id := if_neg named
  intro userId id
  rw [index, SetMap.mem_values_add, listed userId id]
  by_cases here : id = conn.id
  · subst here
    have now : (registry.add conn).get conn.id = some conn := update_self _ _ _
    rw [now, fresh]
    constructor
    · rintro (⟨other, impossible, _⟩ | ⟨same, _⟩)
      · cases impossible
      · exact ⟨conn, rfl, same.symm⟩
    · rintro ⟨other, same, of⟩
      cases same
      exact .inr ⟨of.symm, rfl⟩
  · have now : (registry.add conn).get id = registry.get id := update_of_ne here _ _
    rw [now]
    exact or_iff_left fun added => here added.2

theorem listed_remove {registry : Registry} (listed : Listed registry) {id : ConnId} {conn : Conn}
    (named : conn.userId ≠ "") (held : registry.get id = some conn) :
    Listed (registry.remove id) := by
  have index : (registry.remove id).byUser = registry.byUser.delete conn.userId id := by
    unfold Registry.remove
    dsimp only
    rw [show registry.conns id = some conn from held]
    exact if_neg named
  intro userId other
  rw [index, SetMap.mem_values_delete, listed userId other]
  by_cases here : other = id
  · subst here
    have now : (registry.remove other).get other = none := update_self _ _ _
    rw [now, held]
    constructor
    · rintro ⟨⟨found, same, of⟩, apart⟩
      cases same
      exact False.elim (apart ⟨of.symm, rfl⟩)
    · rintro ⟨found, impossible, _⟩
      cases impossible
  · have now : (registry.remove id).get other = registry.get other :=
      update_of_ne here _ _
    rw [now]
    exact and_iff_left fun deleted => here deleted.2

structure Tidy (state : State Body) : Prop where
  formed : WellFormed state
  listed : Listed state.registry
  named : ∀ id conn, state.registry.get id = some conn -> conn.userId ≠ ""

theorem tidy_initially : Tidy (relayMachine Body).initial where
  formed := WellFormed.initially
  listed userId id := by
    refine iff_of_false (Finset.notMem_empty id) ?_
    rintro ⟨conn, impossible, _⟩
    cases impossible
  named _ _ impossible := by cases impossible

theorem tidy_step (tidy : Tidy state) {input : Input Body} (apart : StartsApart state input) :
    Tidy (state.step input).1 := by
  have formed := tidy.formed.step apart.1
  have outcome := moves state input
  generalize (state.step input).1 = after at outcome formed
  have kept (same : after.registry = state.registry) : Tidy after :=
    ⟨formed, same ▸ tidy.listed, same ▸ tidy.named⟩
  cases outcome with
  | stays same caches => exact kept same.registry
  | @registers ref startedAt userId workspaceId reading =>
    have named : userId ≠ "" := apart.2 userId workspaceId reading
    have fresh := apart.1 userId workspaceId reading
    refine ⟨formed, listed_add tidy.listed named fresh, fun id conn get => ?_⟩
    obtain ⟨rfl, rfl⟩ | old := Registry.get_of_add get
    · exact named
    · exact tidy.named id conn old
  | @forgets ref conn reading =>
    have held := (tidy.formed.live ref _ conn reading rfl).2
    refine ⟨formed, listed_remove tidy.listed (tidy.named _ _ held) held, fun id other get => ?_⟩
    exact tidy.named id other (Registry.get_of_remove get).2
  | visits same caches => exact kept same.registry
  | _ => exact kept rfl

theorem Tidy.reachable (tidy : Tidy state) : Reachable state := by
  intro ref reading conn at_ of
  have held := (tidy.formed.live ref reading conn at_ of).2
  refine ⟨held, fun order visits => ?_, fun userId order different visits member => ?_⟩
  · have inOrder : conn.id ∈ order :=
      (visits.mem conn.id).mpr ((tidy.listed conn.userId conn.id).mpr ⟨conn, held, rfl⟩)
    refine List.count_eq_one_of_mem ?_ (List.mem_filterMap.mpr ⟨conn.id, inOrder, held⟩)
    refine List.Nodup.filterMap (fun first second found firstGet secondGet => ?_) visits.1
    exact (tidy.formed.registered first found firstGet).1.symm.trans
      (tidy.formed.registered second found secondGet).1
  · rcases List.mem_filterMap.mp member with ⟨id, inOrder, get⟩
    have own := (tidy.formed.registered id conn get).1
    subst own
    rcases (tidy.listed userId conn.id).mp ((visits.mem _).mp inOrder) with ⟨found, other, of⟩
    cases held.symm.trans other
    exact different of.symm

theorem untouched_of_same {after : State Body} (registry : after.registry = state.registry)
    (subs : after.subs = state.subs) (conn : Conn) : Untouched state after conn := by
  constructor
  · rw [registry]
  · intro userId
    rw [registry]
  · rw [subs]
  · intro channel
    rw [subs]

theorem Tidy.endsAlone (tidy : Tidy state) (input : Input Body) : EndsAlone state input := by
  intro ref ends other reading conn apart at_ of
  have outcome := moves state input
  generalize (state.step input).1 = after at outcome
  have different {current : Reading Body} {ending : Conn} (endsAt : state.readings ref = some current)
      (endsOf : current.conn = some ending) : conn.id ≠ ending.id :=
    fun same => apart (tidy.formed.unique at_ of endsAt endsOf same).1
  cases outcome with
  | stays same caches => exact untouched_of_same same.registry same.subs conn
  | goesOn => exact ⟨rfl, fun _ => Iff.rfl, rfl, fun _ => Iff.rfl⟩
  | @leaves self ending endsAt =>
    rcases ends with same | same
    · cases same
      have apartIds := different endsAt rfl
      refine ⟨rfl, fun _ => Iff.rfl, update_of_ne apartIds _ _, fun channel => ?_⟩
      exact (Subscription.mem_subscribers_removeAll tidy.formed.coherent).trans
        (and_iff_left apartIds)
    · cases same
  | @forgets self ending endsAt =>
    rcases ends with same | same
    · cases same
    · cases same
      have apartIds := different endsAt rfl
      have held := (tidy.formed.live ref _ ending endsAt rfl).2
      have now : (state.registry.remove ending.id).get conn.id = state.registry.get conn.id :=
        update_of_ne apartIds _ _
      refine ⟨now, fun userId => ?_, rfl, fun _ => Iff.rfl⟩
      rw [tidy.listed userId conn.id, ← now]
      exact listed_remove tidy.listed (tidy.named _ _ held) held userId conn.id
  | _ => rcases ends with same | same <;> cases same

/-- Where every connection starts under an identifier of its own, the live ones
are found under theirs and no end of another one cuts them off. -/
theorem reachable_run (Body : Type) (inputs : List (Input Body))
    (apart : (relayMachine Body).EveryStep StartsApart inputs) :
    (relayMachine Body).EveryState Reachable inputs ∧
      (relayMachine Body).EveryStep EndsAlone inputs := by
  have kept : ∀ state input, Tidy state -> StartsApart state input ->
      Tidy ((relayMachine Body).step state input) :=
    fun _ _ tidy apart => tidy_step tidy apart
  constructor
  · intro before rest split
    exact ((relayMachine Body).guarded_everyState Tidy StartsApart tidy_initially kept inputs apart
      before rest split).reachable
  · exact (relayMachine Body).everyStep_of_guarded Tidy StartsApart tidy_initially kept
      (fun _ input tidy _ => tidy.endsAlone input) inputs apart

def twoTicks : List (Input Unit) :=
  [.fetchVisible 0 "ann" "home" (some []), .register 0 "10:00",
    .fetchVisible 1 "ann" "home" (some []), .register 1 "10:01", .leave 0, .forget 0]

theorem reachable_run_twoTicks : (relayMachine Unit).EveryState Reachable twoTicks := by
  refine (reachable_run Unit twoTicks ((Machine.everyStep_iff_stepsFrom _ _ _).mpr ?_)).1
  refine ⟨⟨trivial, trivial⟩, ⟨fun _ _ _ => rfl, ?_⟩, ⟨trivial, trivial⟩, ⟨?_, ?_⟩,
    ⟨trivial, trivial⟩, ⟨trivial, trivial⟩, trivial⟩
  · rintro userId workspaceId reading
    cases reading
    decide
  · rintro userId workspaceId reading
    cases reading
    rfl
  · rintro userId workspaceId reading
    cases reading
    decide

def oneTick : List (Input Unit) :=
  [.fetchVisible 0 "ann" "home" (some []), .register 0 "10:00",
    .fetchVisible 1 "ann" "home" (some []), .register 1 "10:00"]

theorem connection_shadowed : Not (∀ inputs : List (Input Unit),
    (relayMachine Unit).EveryState Reachable inputs ∧
      (relayMachine Unit).EveryStep EndsAlone inputs) := by
  intro claimed
  have reachable := (claimed oneTick).1.last
  have found := (reachable 0 (.idle (connection 0 "ann" "home" "10:00")) _ rfl rfl).1
  have second : ((relayMachine Unit).after oneTick).registry.get "ann:10:00" =
      some (connection 1 "ann" "home" "10:00") := rfl
  exact absurd (found.symm.trans second) (by decide)

end Relay
end BreadMind
