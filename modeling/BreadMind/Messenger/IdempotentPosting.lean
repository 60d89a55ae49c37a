import BreadMind.Execution.Machine
import BreadMind.Messenger.PostPhases

namespace BreadMind
namespace Messenger

open Execution
open Function (update update_of_ne update_self)

/-!
# Requests under one idempotency key

Any number of requests with one key, path and body run beside each other, and
beside other requests which change the tables and the dedup pointers.  The
record of the key may expire at any time, and any call may raise.

A record lives from the write that finds no record to its expiry.  The log
counts the rows which these requests create while a record is alive, and
keeps who found the key in progress and who completed it.
-/

structure Server where
  world : World
  phases : Nat -> Option Phase

inductive ServerInput where
  | begin (thread : Nat) (caller : Caller)
  | advance (thread : Nat) (fresh : Fresh)
  /-- The call which the request is waiting for raises. -/
  | crash (thread : Nat) (kind : String)
  | expire
  | other (db : Database) (dedup : UUID × UUID × UUID -> Option UUID)

structure PostLog where
  created : Nat := 0
  foundInProgress : Finset Nat := ∅
  /-- The completed records of the key, newest first, with the users of the requests. -/
  puts : List (UUID × MessageResp) := []

variable (sha256 : String -> String) (dumps : MessagePostReq -> String) (request : PostRequest)

/-- Redis after the record of the requests has expired. -/
def expireKey (redis : Option Redis) : Option Redis :=
  match request.key with
  | some key => redis.map fun redis => { redis with idem := update redis.idem key none }
  | none => redis

namespace Server

def goTo (server : Server) (thread : Nat) (phase : Phase) (world : World) : Server where
  world := world
  phases := update server.phases thread (some phase)

def step (server : Server) : ServerInput -> Server
  | .begin thread caller =>
    match server.phases thread with
    | none => server.goTo thread (.starting caller) server.world
    | some _ => server
  | .advance thread fresh =>
    match server.phases thread with
    | some phase =>
      let (next, world) := advance sha256 dumps { request with fresh } server.world phase
      server.goTo thread next world
    | none => server
  | .crash thread kind =>
    match server.phases thread with
    | some _ => server.goTo thread (.done (.error (.raised kind))) server.world
    | none => server
  | .expire =>
    { server with world := { server.world with redis := expireKey request server.world.redis } }
  | .other db dedup => { server with world := {
      db
      redis := server.world.redis.map fun redis => { redis with dedup } } }

end Server

def recordOf (world : World) : Option Record :=
  request.key.bind fun key => world.redis.bind fun redis => redis.idem key

def creates (fresh : Fresh) (world : World) (ctx : WorkspaceContext) : Bool :=
  match advance sha256 dumps { request with fresh } world (.inserting ctx) with
  | (.remembering _ _, _) => true
  | _ => false

def notePost (server : Server) (input : ServerInput) (log : PostLog) : PostLog :=
  match input with
  | .advance thread fresh =>
    match server.phases thread with
    | some (.looking _ _) =>
      match recordOf request server.world with
      | some (.inProgress _) => { log with foundInProgress := insert thread log.foundInProgress }
      | _ => log
    | some (.inserting ctx) =>
      if creates sha256 dumps request fresh server.world ctx ∧ (recordOf request server.world).isSome then
        { log with created := log.created + 1 }
      else log
    | some (.storing ctx row) => { log with puts := (ctx.user.id, toResp row) :: log.puts }
    | _ => log
  | .expire => { log with created := 0 }
  | _ => log

variable (start : World)

/-- The requests, started when the key has no record. -/
def idempotencyMachine : Machine (Server × PostLog) ServerInput :=
  Machine.recording {
    initial := {
      world := { start with redis := expireKey request start.redis }
      phases := fun _ => none }
    step := fun server input => server.step sha256 dumps request input } {}
    (notePost sha256 dumps request)

variable (current : Server × PostLog)

/-- A row is created only as the first one of the record that is alive and
only by a request that did not find the key in progress, and a replayed
response was stored for the same user. -/
def PostsOnce : ServerInput -> Prop
  | .advance thread fresh =>
    (∀ ctx, current.1.phases thread = some (.inserting ctx) -> thread ∉ current.2.foundInProgress ∧
      (creates sha256 dumps request fresh current.1.world ctx = true ->
        (recordOf request current.1.world).isSome = true -> current.2.created = 0)) ∧
    (∀ ctx key body, current.1.phases thread = some (.looking ctx key) ->
      (advance sha256 dumps { request with fresh } current.1.world (.looking ctx key)).1 =
        .done (.ok body) -> (ctx.user.id, body) ∈ current.2.puts)
  | _ => True

def Phase.awaitsInsert : Phase -> Bool
  | .deduping _ => true
  | .fetching _ _ => true
  | .inserting _ => true
  | _ => false

/-- No request finds the key in progress or completed by another user, and the
record does not expire under a request that has still to insert its row. -/
def KeyRespected : ServerInput -> Prop
  | .advance thread _ => ∀ ctx key, current.1.phases thread = some (.looking ctx key) ->
      (∀ hash, recordOf request current.1.world ≠ some (.inProgress hash)) ∧
      (∀ status body hash, recordOf request current.1.world = some (.completed status body hash) ->
        ∃ last, current.2.puts.head? = some last ∧ last.1 = ctx.user.id)
  | .expire => ∀ thread phase, current.1.phases thread = some phase -> phase.awaitsInsert = false
  | _ => True

/-! ## What a call does to the record -/

section Calls

variable {sha256 dumps request}
variable {world : World} {ctx : WorkspaceContext} {key : String} {fresh : Fresh}

theorem recordOf_expire {db : Database} {redis : Option Redis} :
    recordOf request { db, redis := expireKey request redis } = none := by
  unfold recordOf expireKey
  cases request.key with
  | none => rfl
  | some key =>
    cases redis with
    | none => rfl
    | some redis => exact update_self _ _ _

theorem recordOf_other {db : Database} {dedup : UUID × UUID × UUID -> Option UUID} :
    recordOf request { db, redis := world.redis.map fun redis => { redis with dedup } } =
      recordOf request world := by
  unfold recordOf
  cases world.redis <;> rfl

theorem recordOf_remember {sender : UUID} {row : MessageRow} :
    recordOf request { world with redis := rememberMessage world.redis request sender row } =
      recordOf request world := by
  unfold recordOf rememberMessage
  cases request.body.clientMsgId with
  | none => rfl
  | some clientMsgId => cases world.redis <;> rfl

/-- A stored response is the record, unless there is no key or no Redis. -/
theorem recordOf_store (sha256 : String -> String) (dumps : MessagePostReq -> String)
    (request : PostRequest) (world : World) (resp : MessageResp) :
    recordOf request { world with redis := storeResponse sha256 dumps world.redis request resp } =
        some (.completed 201 resp (request.rhash sha256 dumps)) ∨
      (recordOf request world = none ∧
        recordOf request { world with redis := storeResponse sha256 dumps world.redis request resp } =
          none) := by
  unfold recordOf storeResponse
  cases request.key with
  | none => exact .inr ⟨rfl, rfl⟩
  | some key =>
    cases world.redis with
    | none => exact .inr ⟨rfl, rfl⟩
    | some redis => exact .inl (update_self _ _ _)

theorem recordOf_looking (redis : Redis) (db : Database) (keyed : request.key = some key) :
    recordOf request { db, redis := some redis } = redis.idem key := by
  unfold recordOf
  rw [keyed]
  rfl

def Phase.writesRecord : Phase -> Bool
  | .locking _ _ => true
  | .storing _ _ => true
  | _ => false

variable {phase : Phase}

theorem recordOf_advance (silent : phase.writesRecord = false) :
    recordOf request (advance sha256 dumps { request with fresh } world phase).2 =
      recordOf request world := by
  cases phase with
  | locking ctx key => cases silent
  | storing ctx row => cases silent
  | remembering ctx row => exact recordOf_remember
  | done answer => rfl
  | starting caller | looking ctx key =>
    simp only [advance]
    split
    · rfl
    · split
      · rfl
      · split <;> rfl
  | deduping ctx =>
    simp only [advance]
    split
    · split <;> rfl
    · rfl
  | fetching ctx existingId | inserting ctx | resolving ctx =>
    simp only [advance]
    split <;> rfl

theorem awaits_advance (given : request.key = some key) (keyed : phase.Keyed request)
    (idle : ∀ ctx key, phase = .looking ctx key ->
      ∀ hash, recordOf request world ≠ some (.inProgress hash))
    (awaits : (advance sha256 dumps { request with fresh } world phase).1.awaitsInsert = true) :
    phase.awaitsInsert = true ∨ (phase.writesRecord = true ∧ recordOf request world = none ∧ ∃ hash,
        recordOf request (advance sha256 dumps { request with fresh } world phase).2 =
          some (.inProgress hash)) := by
  cases phase with
  | deduping ctx | fetching ctx existingId | inserting ctx => exact .inl rfl
  | remembering ctx row | storing ctx row | done answer => cases awaits
  | starting caller =>
    have given : PostRequest.key { request with fresh } = some key := given
    simp only [advance, given] at awaits
    split at awaits
    · cases awaits
    · split at awaits <;> cases awaits
  | resolving ctx =>
    simp only [advance] at awaits
    split at awaits <;> cases awaits
  | looking ctx other =>
    rcases world with ⟨db, redis⟩
    cases redis with
    | none => cases awaits
    | some redis =>
      have held := recordOf_looking redis db keyed
      cases found : redis.idem other with
      | none =>
        simp only [advance, found] at awaits
        cases awaits
      | some record =>
        cases record with
        | inProgress hash => exact absurd (held.trans found) (idle ctx other rfl hash)
        | completed status body hash =>
          simp only [advance, found, Redis.readRecord] at awaits
          by_cases same : hash = PostRequest.rhash sha256 dumps { request with fresh }
          · rw [if_neg (not_not.mpr same)] at awaits
            cases awaits
          · rw [if_pos same] at awaits
            cases awaits
  | locking ctx other =>
    rcases world with ⟨db, redis⟩
    cases redis with
    | none => cases awaits
    | some redis =>
      have held := recordOf_looking redis db keyed
      cases found : redis.idem other with
      | some record =>
        simp only [advance, found] at awaits
        cases awaits
      | none =>
        refine .inr ⟨rfl, held.trans found, PostRequest.rhash sha256 dumps request, ?_⟩
        simp only [advance, found]
        exact (recordOf_looking _ _ keyed).trans (update_self _ _ _)

theorem completed_of_replayed {body : MessageResp} (keyed : request.key = some key)
    (replayed : (advance sha256 dumps { request with fresh } world (.looking ctx key)).1 =
      .done (.ok body)) : ∃ status hash,
      recordOf request world = some (.completed status body hash) := by
  rcases world with ⟨db, redis⟩
  cases redis with
  | none => cases replayed
  | some redis =>
    rw [recordOf_looking redis db keyed]
    cases found : redis.idem key with
    | none =>
      simp only [advance, found] at replayed
      cases replayed
    | some record =>
      cases record with
      | inProgress hash =>
        simp only [advance, found, Redis.readRecord] at replayed
        by_cases same : hash = PostRequest.rhash sha256 dumps { request with fresh }
        · rw [if_neg (not_not.mpr same)] at replayed
          cases replayed
        · rw [if_pos same] at replayed
          cases replayed
      | completed status stored hash =>
        simp only [advance, found, Redis.readRecord] at replayed
        by_cases same : hash = PostRequest.rhash sha256 dumps { request with fresh }
        · rw [if_neg (not_not.mpr same)] at replayed
          cases replayed
          exact ⟨status, hash, rfl⟩
        · rw [if_pos same] at replayed
          cases replayed

theorem locking_keeps (idle : (advance sha256 dumps { request with fresh } world
    (.locking ctx key)).1.awaitsInsert = false) :
    (advance sha256 dumps { request with fresh } world (.locking ctx key)).2 = world := by
  rcases world with ⟨db, redis⟩
  cases redis with
  | none => rfl
  | some redis =>
    cases found : redis.idem key with
    | none =>
      simp only [advance, found] at idle
      cases idle
    | some record => simp only [advance, found]

theorem idle_of_creates (created : creates sha256 dumps request fresh world ctx = true) :
    (advance sha256 dumps { request with fresh } world (.inserting ctx)).1.awaitsInsert = false := by
  unfold creates at created
  split at created
  · rename_i next_ remembers
    rw [remembers]
    rfl
  · cases created

end Calls

/-! ## At most one request awaits its insertion -/

def Awaits (server : Server) (thread : Nat) : Prop :=
  ∃ phase, server.phases thread = some phase ∧ phase.awaitsInsert = true

structure OncePerRecord : Prop where
  keyed : ∀ thread phase, current.1.phases thread = some phase -> phase.Keyed request
  unfound : current.2.foundInProgress = ∅
  free : request.key ≠ none -> recordOf request current.1.world = none ->
    (∀ thread, ¬ Awaits current.1 thread) ∧ current.2.created = 0
  single : request.key ≠ none -> ∀ first second, Awaits current.1 first ->
    Awaits current.1 second -> first = second
  fresh : request.key ≠ none -> ∀ thread, Awaits current.1 thread -> current.2.created = 0
  stored : ∀ status body hash, recordOf request current.1.world = some (.completed status body hash) ->
    ∃ last, current.2.puts.head? = some last ∧ last.2 = body

variable {sha256 dumps request}

variable {server : Server} {thread : Nat}

theorem awaits_goTo {other : Nat} {phase : Phase} {world : World} :
    Awaits (server.goTo thread phase world) other <->
      (other = thread ∧ phase.awaitsInsert = true) ∨ (other ≠ thread ∧ Awaits server other) := by
  unfold Awaits Server.goTo
  dsimp only
  by_cases same : other = thread
  · subst same
    rw [update_self]
    simp only [Option.some_inj, exists_eq_left', true_and, ne_eq, not_true_eq_false, false_and, or_false]
  · rw [update_of_ne same]
    simp only [same, false_and, ne_eq, not_false_eq_true, true_and, false_or]

theorem keyed_goTo {next : Phase} {world : World}
    (keyed : ∀ thread phase, server.phases thread = some phase -> phase.Keyed request)
    (nextKeyed : next.Keyed request) :
    ∀ other phase, (server.goTo thread next world).phases other = some phase ->
      phase.Keyed request := by
  intro other phase at_
  change update server.phases thread (some next) other = some phase at at_
  by_cases same : other = thread
  · subst same
    rw [update_self] at at_
    cases at_
    exact nextKeyed
  · rw [update_of_ne same] at at_
    exact keyed other phase at_

namespace OncePerRecord

variable {server : Server} {log : PostLog}

theorem goTo (once : OncePerRecord request (server, log)) {thread : Nat} {next : Phase} {world : World}
    {later : PostLog} (keyed : next.Keyed request) (unfound : later.foundInProgress = ∅)
    (quiet : request.key ≠ none -> next.awaitsInsert = true -> Awaits server thread)
    (alive : recordOf request world = none -> recordOf request server.world = none)
    (stored : ∀ status body hash, recordOf request world = some (.completed status body hash) ->
      ∃ last, later.puts.head? = some last ∧ last.2 = body)
    (created : later.created = log.created ∨ (Awaits server thread ∧ next.awaitsInsert = false ∧
      recordOf request server.world ≠ none)) :
    OncePerRecord request (server.goTo thread next world, later) := by
  have before : request.key ≠ none -> ∀ other, Awaits (server.goTo thread next world) other ->
      Awaits server other := by
    intro given other awaits
    rcases awaits_goTo.mp awaits with ⟨same, nextAwaits⟩ | ⟨_, old⟩
    · exact same ▸ quiet given nextAwaits
    · exact old
  refine ⟨keyed_goTo once.keyed keyed, unfound, ?_, ?_, ?_, stored⟩
  · intro given none_
    have ⟨nobody, zero⟩ := once.free given (alive none_)
    refine ⟨fun other awaits => nobody other (before given other awaits), ?_⟩
    rcases created with same | ⟨awaits, _, _⟩
    · exact same.trans zero
    · exact absurd awaits (nobody thread)
  · intro given first second firstAwaits secondAwaits
    exact once.single given first second (before given first firstAwaits) (before given second secondAwaits)
  · intro given other awaits
    rcases created with same | ⟨threadAwaits, nextIdle, _⟩
    · exact same.trans (once.fresh given other (before given other awaits))
    · have same := once.single given other thread (before given other awaits) threadAwaits
      rcases awaits_goTo.mp awaits with ⟨_, nextAwaits⟩ | ⟨different, _⟩
      · rw [nextIdle] at nextAwaits
        cases nextAwaits
      · exact absurd same different

theorem acquires (once : OncePerRecord request (server, log)) {thread : Nat} {next : Phase}
    {world : World} (keyed : next.Keyed request) (none_ : recordOf request server.world = none)
    {hash : String} (acquired : recordOf request world = some (.inProgress hash)) :
    OncePerRecord request (server.goTo thread next world, log) := by
  have only : request.key ≠ none -> ∀ other, Awaits (server.goTo thread next world) other ->
      other = thread := by
    intro given other awaits
    rcases awaits_goTo.mp awaits with ⟨same, _⟩ | ⟨_, old⟩
    · exact same
    · exact absurd old ((once.free given none_).1 other)
  refine ⟨keyed_goTo once.keyed keyed, once.unfound, ?_, ?_, ?_, ?_⟩
  · intro _ gone
    cases acquired.symm.trans gone
  · intro given first second firstAwaits secondAwaits
    exact (only given first firstAwaits).trans (only given second secondAwaits).symm
  · intro given _ _
    exact (once.free given none_).2
  · intro status body other completed
    cases acquired.symm.trans completed

theorem advances (once : OncePerRecord request (server, log)) {thread : Nat} {fresh : Fresh}
    {phase : Phase} (at_ : server.phases thread = some phase) (silent : phase.writesRecord = false)
    (idle : ∀ ctx key, phase = .looking ctx key ->
      ∀ hash, recordOf request server.world ≠ some (.inProgress hash))
    {later : PostLog} (unfound : later.foundInProgress = ∅) (puts : later.puts = log.puts)
    (created : later.created = log.created ∨ (phase.awaitsInsert = true ∧
      (advance sha256 dumps { request with fresh } server.world phase).1.awaitsInsert = false ∧
      recordOf request server.world ≠ none)) : OncePerRecord request (server.goTo thread
      (advance sha256 dumps { request with fresh } server.world phase).1
      (advance sha256 dumps { request with fresh } server.world phase).2, later) := by
  have same : recordOf request (advance sha256 dumps { request with fresh } server.world phase).2 =
      recordOf request server.world := recordOf_advance silent
  have keyed := once.keyed thread phase at_
  refine once.goTo (keyed_advance keyed) unfound ?_ ?_ ?_ ?_
  · intro given awaits
    rcases Option.ne_none_iff_exists'.mp given with ⟨key, given⟩
    rcases awaits_advance given keyed idle awaits with old | ⟨writes, _⟩
    · exact ⟨phase, at_, old⟩
    · rw [silent] at writes
      cases writes
  · exact fun none_ => same.symm.trans none_
  · intro status body hash completed
    rw [puts]
    exact once.stored status body hash (same.symm.trans completed)
  · rcases created with kept | ⟨awaits, nextIdle, alive⟩
    · exact .inl kept
    · exact .inr ⟨⟨phase, at_, awaits⟩, nextIdle, alive⟩

end OncePerRecord

theorem oncePerRecord_initially :
    OncePerRecord request (idempotencyMachine sha256 dumps request start).initial where
  keyed := fun _ _ impossible => by cases impossible
  unfound := rfl
  free := by
    refine fun _ _ => ⟨?_, rfl⟩
    rintro _ ⟨_, impossible, _⟩
    cases impossible
  single := by
    rintro _ _ _ ⟨_, impossible, _⟩
    cases impossible
  fresh := fun _ _ _ => rfl
  stored := by
    intro status body hash completed
    cases recordOf_expire.symm.trans completed

theorem oncePerRecord_advance {log : PostLog} {fresh : Fresh}
    {phase : Phase} (once : OncePerRecord request (server, log)) (at_ : server.phases thread = some phase)
    (respected : KeyRespected request (server, log) (.advance thread fresh)) :
    OncePerRecord request (server.goTo thread
      (advance sha256 dumps { request with fresh } server.world phase).1
      (advance sha256 dumps { request with fresh } server.world phase).2,
      notePost sha256 dumps request server (.advance thread fresh) log) := by
  unfold notePost
  dsimp only
  rw [at_]
  cases phase with
  | locking ctx key =>
    have keyed := once.keyed thread _ at_
    cases awaits : (advance sha256 dumps { request with fresh } server.world
        (.locking ctx key)).1.awaitsInsert with
    | true =>
      rcases awaits_advance keyed keyed (fun _ _ impossible => by cases impossible) awaits with
        impossible | ⟨_, none_, hash, acquired⟩
      · cases impossible
      · exact once.acquires (keyed_advance keyed) none_ acquired
    | false =>
      have kept := locking_keeps awaits
      refine once.goTo (keyed_advance keyed) once.unfound ?_ ?_ ?_ (.inl rfl)
      · intro _ impossible
        cases awaits.symm.trans impossible
      · rw [kept]
        exact id
      · rw [kept]
        exact once.stored
  | storing ctx row =>
    have written := recordOf_store sha256 dumps request server.world (toResp row)
    refine once.goTo trivial once.unfound (fun _ impossible => by cases impossible) ?_ ?_ (.inl rfl)
    · intro none_
      rcases written with completed | ⟨before, _⟩
      · cases completed.symm.trans none_
      · exact before
    · intro status body hash completed
      refine ⟨_, rfl, ?_⟩
      rcases written with same | ⟨_, none_⟩
      · cases same.symm.trans completed
        rfl
      · cases none_.symm.trans completed
  | looking ctx key =>
    have idle := (respected ctx key at_).1
    dsimp only
    split
    · rename_i hash held
      exact absurd held (idle hash)
    · refine once.advances at_ rfl ?_ once.unfound rfl (.inl rfl)
      intro _ _ _
      exact idle
  | inserting ctx =>
    dsimp only
    split
    · rename_i both
      refine once.advances at_ rfl (fun _ _ impossible => by cases impossible) once.unfound rfl
        (.inr ⟨rfl, idle_of_creates both.1, Option.isSome_iff_ne_none.mp both.2⟩)
    · exact once.advances at_ rfl (fun _ _ impossible => by cases impossible) once.unfound rfl
        (.inl rfl)
  | _ =>
    exact once.advances at_ rfl (fun _ _ impossible => by cases impossible) once.unfound rfl
      (.inl rfl)

theorem oncePerRecord_step (input : ServerInput)
    (once : OncePerRecord request current) (respected : KeyRespected request current input) :
    OncePerRecord request ((idempotencyMachine sha256 dumps request start).step current input) := by
  rcases current with ⟨server, log⟩
  change OncePerRecord request
    (server.step sha256 dumps request input, notePost sha256 dumps request server input log)
  cases input with
  | begin thread caller | crash thread kind =>
    unfold Server.step notePost
    dsimp only
    split
    · exact once.goTo trivial once.unfound (fun _ impossible => by cases impossible) id once.stored
        (.inl rfl)
    · exact once
  | expire =>
    have gone : recordOf request (server.step sha256 dumps request .expire).world = none := recordOf_expire
    have nobody : ∀ thread, ¬ Awaits server thread := by
      rintro thread ⟨phase, at_, awaits⟩
      rw [respected thread phase at_] at awaits
      cases awaits
    refine ⟨once.keyed, once.unfound, fun _ _ => ⟨nobody, rfl⟩, once.single, fun _ _ _ => rfl, ?_⟩
    intro status body hash completed
    cases gone.symm.trans completed
  | other db dedup =>
    have same : recordOf request (server.step sha256 dumps request (.other db dedup)).world =
        recordOf request server.world := recordOf_other
    refine ⟨once.keyed, once.unfound, ?_, once.single, once.fresh, ?_⟩
    · exact fun given none_ => once.free given (same.symm.trans none_)
    · exact fun status body hash completed => once.stored status body hash (same.symm.trans completed)
  | advance thread fresh =>
    cases at_ : server.phases thread with
    | none =>
      simp only [Server.step, notePost, at_]
      exact once
    | some phase =>
      have moved : server.step sha256 dumps request (.advance thread fresh) = server.goTo thread
          (advance sha256 dumps { request with fresh } server.world phase).1
          (advance sha256 dumps { request with fresh } server.world phase).2 := by
        simp only [Server.step, at_]
      rw [moved]
      exact oncePerRecord_advance once at_ respected

/-- In every run in which no request finds the key in progress or completed by another
user, and no record expires under a pending insertion, a record sees one row at most
and replays go to their own user. -/
theorem posts_once_run (start : World) (inputs : List ServerInput)
    (respected : (idempotencyMachine sha256 dumps request start).EveryStep (KeyRespected request) inputs) :
    (idempotencyMachine sha256 dumps request start).EveryStep (PostsOnce sha256 dumps request) inputs := by
  refine (idempotencyMachine sha256 dumps request start).everyStep_of_guarded (OncePerRecord request)
    (KeyRespected request) (oncePerRecord_initially start) (oncePerRecord_step start) ?_ inputs respected
  rintro ⟨server, log⟩ input once respected
  cases input with
  | advance thread fresh =>
    refine ⟨?_, ?_⟩
    · intro ctx at_
      refine ⟨once.unfound ▸ Finset.notMem_empty thread, ?_⟩
      intro _ alive
      refine once.fresh ?_ thread ⟨_, at_, rfl⟩
      intro keyless
      unfold recordOf at alive
      rw [keyless] at alive
      cases alive
    · intro ctx key body at_ replayed
      rcases completed_of_replayed (once.keyed thread _ at_) replayed with ⟨status, hash, completed⟩
      rcases once.stored status body hash completed with ⟨last, newest, same⟩
      rcases (respected ctx key at_).2 status body hash completed with ⟨other, isOther, author⟩
      cases newest.symm.trans isOther
      have pair : last = (ctx.user.id, body) := Prod.ext author same
      exact pair ▸ List.mem_of_mem_head? newest
  | _ => trivial

def onePoster : World where
  db := {
    users := [{ id := 1, workspaceId := 10, email := "first", kind := .human, role := .member }]
    channels := [{
      id := 5, workspaceId := 10, kind := .publicChannel, postingPolicy := .all, isArchived := false }]
    usersById := by decide
    channelsById := by decide
    membersByPair := members_nil
    messagesById := messages_nil
    messagesBySequence := sequences_nil
    messagesByClientMsgId := clients_nil }
  redis := some {}

def helloUnderKey : PostRequest where
  cid := 5
  path := "/messages"
  body := { text := some "hello" }
  idempotencyKey := some "k"
  fresh := { messageId := 0, outboxId := 0, now := 0, clock := 0 }

def drawing (number : Nat) : Fresh where
  messageId := BitVec.ofNat 128 number
  outboxId := BitVec.ofNat 128 number
  now := number
  clock := number

def beginning (thread : Nat) : ServerInput :=
  .begin thread { token := .ok 1, wid := 10 }

def advancing (thread steps : Nat) : List ServerInput :=
  List.replicate steps (.advance thread (drawing (thread + 1)))

/-- One request after the other: the second one replays the response. -/
theorem posts_once_retried :
    (idempotencyMachine (fun text => text) (fun _ => "") helloUnderKey onePoster).EveryStep
      (PostsOnce (fun text => text) (fun _ => "") helloUnderKey)
      (beginning 0 :: advancing 0 7 ++ beginning 1 :: advancing 1 2) := by
  refine posts_once_run onePoster _ ((Machine.everyStep_iff_stepsFrom _ _ _).mpr ?_)
  refine ⟨trivial, ?_, ?_, ?_, ?_, ?_, ?_, ?_, trivial, ?_, ?_, trivial⟩
  · intro ctx key at_
    cases at_
  · intro ctx key at_
    refine ⟨?_, ?_⟩
    · intro hash held
      cases held
    · intro status body hash held
      cases held
  · intro ctx key at_
    cases at_
  · intro ctx key at_
    cases at_
  · intro ctx key at_
    cases at_
  · intro ctx key at_
    cases at_
  · intro ctx key at_
    cases at_
  · intro ctx key at_
    cases at_
  · intro ctx key at_
    cases at_
    refine ⟨?_, fun status body hash held => ⟨_, rfl, rfl⟩⟩
    intro hash held
    cases held

def firstContext : WorkspaceContext where
  workspaceId := 10
  user := { id := 1, workspaceId := 10, role := .member, email := "first", kind := .human }

def overlapping : List ServerInput :=
  beginning 0 :: advancing 0 4 ++ beginning 1 :: advancing 1 4

/-- The first request adds another row under the record. -/
theorem two_rows_under_one_record : ¬ ∀ start request inputs,
    (idempotencyMachine (fun text => text) (fun _ => "") request start).EveryStep
      (PostsOnce (fun text => text) (fun _ => "") request) inputs := by
  intro claimed
  have once := claimed onePoster helloUnderKey (overlapping ++ [.advance 0 (drawing 1)]) overlapping _ [] rfl
  have zero := (once.1 firstContext (by rfl)).2 (by decide +kernel) (by decide +kernel)
  have one : ((idempotencyMachine (fun text => text) (fun _ => "") helloUnderKey onePoster).after
      overlapping).2.created = 1 := by decide +kernel
  cases one.symm.trans zero

end Messenger
end BreadMind
