import BreadMind.Base.Values
import BreadMind.Execution.Dict
import BreadMind.Execution.Holders
import BreadMind.Execution.Machine
import Mathlib.Logic.Function.Basic

namespace BreadMind
namespace Web

open Execution
open Function (update update_of_ne update_self)

/-!
# The idempotency middleware

A request of a mutating method may name a key.  The response to it is cached
under the key, and later requests with the key are answered from the cache.

A coroutine gives way only where it has to wait.  The lock of the store is never
held across a wait, so nobody ever finds it taken, and a request is two steps: the
one from its arrival to the call of its handler, and the one from the end of the
handler to the reply.  In between the requests of other tasks take their steps,
and entries of the cache expire and are evicted.

Times are microseconds of the monotonic clock.
-/

universe u v

abbrev Bytes := List UInt8

def idempotentMethods : List String := ["POST", "PUT", "PATCH"]

structure IdempotencyConfig where
  cacheTtl : Int := 300 * 1000000
  maxCacheSize : Int := 10000

structure CachedResponse where
  statusCode : Nat
  body : Bytes
  headers : Dict String String
  createdAt : Int

structure IdempotencyStore where
  cache : Dict String CachedResponse := []
  processing : List String := []

namespace IdempotencyStore

variable (config : IdempotencyConfig) (store : IdempotencyStore)

/-- An entry which has expired is removed where it is found. -/
def get (now : Int) (key : String) : Option CachedResponse × IdempotencyStore :=
  match store.cache.lookup key with
  | none => (none, store)
  | some cached =>
    if config.cacheTtl < now - cached.createdAt then
      (none, { store with cache := Dict.pop key store.cache })
    else (some cached, store)

/-- `min` over the entries of the cache: of several oldest ones the first. -/
def oldest : Dict String CachedResponse -> Option (String × CachedResponse)
  | [] => none
  | entry :: rest =>
    match oldest rest with
    | none => some entry
    | some other => if other.2.createdAt < entry.2.createdAt then some other else some entry

def oldestKey : Option String := (oldest store.cache).map Prod.fst

/-- One entry makes room when the cache is full.  A cache without room for any
entry has none to evict, and `min` raises. -/
def set (key : String) (response : CachedResponse) : Except PyError IdempotencyStore :=
  if config.maxCacheSize ≤ store.cache.length then
    match store.oldestKey with
    | none => .error (.valueError "min() iterable argument is empty")
    | some oldest => .ok { store with cache := Dict.set key response (Dict.pop oldest store.cache) }
  else .ok { store with cache := Dict.set key response store.cache }

def isProcessing (key : String) : Bool := decide (key ∈ store.processing)

def markProcessing (key : String) : IdempotencyStore :=
  { store with processing := store.processing.insert key }

def unmarkProcessing (key : String) : IdempotencyStore :=
  { store with processing := store.processing.filter fun other => !decide (other = key) }

def cleanup (now : Int) : IdempotencyStore :=
  { store with
    cache := store.cache.filter fun entry => !decide (config.cacheTtl < now - entry.2.createdAt) }

/-! ## What the operations leave in the store -/

variable {store}

variable {now : Int} {key : String} {entry : String × CachedResponse}

theorem mem_get (member : entry ∈ (store.get config now key).2.cache) : entry ∈ store.cache := by
  unfold get at member
  split at member
  · exact member
  · split at member
    · exact List.mem_of_mem_filter member
    · exact member

theorem get_processing (now : Int) (key : String) :
    (store.get config now key).2.processing = store.processing := by
  unfold get
  split
  · rfl
  · split <;> rfl

theorem get_some {cached : CachedResponse} (found : (store.get config now key).1 = some cached) :
    store.cache.lookup key = some cached ∧ Not (config.cacheTtl < now - cached.createdAt) := by
  unfold get at found
  cases here : store.cache.lookup key with
  | none =>
    rw [here] at found
    cases found
  | some entry =>
    rw [here] at found
    dsimp only at found
    split at found
    · cases found
    case isFalse alive =>
      cases found
      exact ⟨rfl, alive⟩

theorem get_none (missed : (store.get config now key).1 = none)
    (member : entry ∈ (store.get config now key).2.cache) : entry.1 ≠ key := by
  unfold get at missed member
  cases here : store.cache.lookup key with
  | none =>
    rw [here] at member
    rintro rfl
    exact absurd rfl (bne_iff_ne.mp (List.lookup_eq_none_iff.mp here entry member))
  | some cached =>
    rw [here] at missed member
    dsimp only at missed member
    split at missed
    case isTrue expired =>
      rw [if_pos expired] at member
      have kept := (List.mem_filter.mp member).2
      rw [Bool.not_eq_true', decide_eq_false_iff_not] at kept
      exact kept
    · cases missed

theorem get_none_of_expired (missed : (store.get config now key).1 = none) {cached : CachedResponse}
    (found : store.cache.lookup key = some cached) : config.cacheTtl < now - cached.createdAt := by
  by_contra alive
  unfold get at missed
  rw [found] at missed
  dsimp only at missed
  rw [if_neg alive] at missed
  cases missed

variable {response : CachedResponse} {stored : IdempotencyStore}

theorem mem_of_set (done : store.set config key response = .ok stored)
    (member : entry ∈ stored.cache) : entry = (key, response) ∨ entry ∈ store.cache := by
  unfold set at done
  split at done
  · split at done
    · cases done
    · cases done
      exact (Dict.mem_set member).imp_right List.mem_of_mem_filter
  · cases done
    exact Dict.mem_set member

theorem set_processing (done : store.set config key response = .ok stored) :
    stored.processing = store.processing := by
  unfold set at done
  split at done
  · split at done
    · cases done
    · cases done
      rfl
  · cases done
    rfl

theorem set_unmarkProcessing (done : store.set config key response = .ok stored) (other : String) :
    (store.unmarkProcessing other).set config key response =
      .ok (stored.unmarkProcessing other) := by
  have oldest : (store.unmarkProcessing other).oldestKey = store.oldestKey := rfl
  have cache : (store.unmarkProcessing other).cache = store.cache := rfl
  unfold set at done ⊢
  rw [oldest, cache]
  split at done
  case isTrue full =>
    rw [if_pos full]
    cases old : store.oldestKey with
    | none =>
      rw [old] at done
      cases done
    | some key =>
      rw [old] at done
      cases done
      rfl
  case isFalse room =>
    rw [if_neg room]
    cases done
    rfl

end IdempotencyStore

/-! ## The two halves of `dispatch` -/

structure Request (Caller : Type v) where
  method : String
  path : String
  caller : Caller
  idempotencyKey : Option String

/-- The arguments of a response that the middleware makes itself. -/
structure Reply where
  content : Bytes
  statusCode : Nat
  headers : Dict String String := []
  mediaType : Option String := none

inductive BodyChunk where
  | text (chunk : String)
  | bytes (chunk : Bytes)

def BodyChunk.encoded : BodyChunk -> Bytes
  | .text chunk => chunk.toUTF8.toList
  | .bytes chunk => chunk

structure HandlerResponse where
  statusCode : Nat
  headers : List (String × String)
  bodyIterator : List BodyChunk

def HandlerResponse.body (response : HandlerResponse) : Bytes :=
  response.bodyIterator.foldl (fun body chunk => body ++ chunk.encoded) []

variable (response : HandlerResponse)

/-- The headers which are cached: all but the one that names the encoding. -/
def HandlerResponse.cachedHeaders : Dict String String :=
  (response.headers.filter fun header => !decide (header.1.toLower ∈ ["transfer-encoding"])).foldl
    (fun headers header => Dict.set header.1 header.2 headers) []

def HandlerResponse.cached (now : Int) : CachedResponse where
  statusCode := response.statusCode
  body := response.body
  headers := response.cachedHeaders
  createdAt := now

def HandlerResponse.reply : Reply where
  content := response.body
  statusCode := response.statusCode
  headers := response.cachedHeaders

def CachedResponse.reply (cached : CachedResponse) : Reply where
  content := cached.body
  statusCode := cached.statusCode
  headers := cached.headers

def duplicateReply : Reply where
  content := "\x7b\"error\":\"Duplicate request is already being processed\"\x7d".toUTF8.toList
  statusCode := 409
  mediaType := some "application/json"

/-- The key under which the middleware handles a request, if it handles it. -/
def Request.handledKey {Caller : Type v} (request : Request Caller) : Option String :=
  if request.method ∈ idempotentMethods then
    match request.idempotencyKey with
    | none => none
    | some idemKey => if idemKey = "" then none else some idemKey
  else none

inductive Admission where
  | passedOn
  | replayed (cached : CachedResponse)
  | duplicate
  | executing (key : String)

/-- The reply to a request whose handler is not called. -/
def Admission.reply : Admission -> Option Reply
  | .passedOn => none
  | .replayed cached => some cached.reply
  | .duplicate => some duplicateReply
  | .executing _ => none

/-- `dispatch` up to the call of the handler. -/
def beginDispatch {Caller : Type v} (config : IdempotencyConfig) (store : IdempotencyStore) (now : Int)
    (request : Request Caller) : Admission × IdempotencyStore :=
  match request.handledKey with
  | none => (.passedOn, store)
  | some idemKey =>
    match store.get config now idemKey with
    | (some cached, left) => (.replayed cached, left)
    | (none, left) =>
      if left.isProcessing idemKey then (.duplicate, left)
      else (.executing idemKey, left.markProcessing idemKey)

/-- `dispatch` from the end of the handler on, the `finally` clause included. -/
def complete (config : IdempotencyConfig) (store : IdempotencyStore) (now : Int) (idemKey : String)
    (response : HandlerResponse) : Except PyError Reply × IdempotencyStore :=
  match store.set config idemKey (response.cached now) with
  | .error failure => (.error failure, store.unmarkProcessing idemKey)
  | .ok stored => (.ok response.reply, stored.unmarkProcessing idemKey)

/-! ## Requests that overlap -/

/-- A handler that was called for a request with a key and has not ended. -/
structure Running (Caller : Type v) where
  idemKey : String
  request : Request Caller

/-- The store beside the tasks whose handlers run.  Which request a response was
made for is noted beside the run; the code keeps no record of it. -/
structure ServerState (Task : Type u) (Caller : Type v) where
  store : IdempotencyStore := {}
  now : Int
  running : Task -> Option (Running Caller) := fun _ => none
  produced : String -> Option (Request Caller × CachedResponse) := fun _ => none

/-- A handler that fails raises or is cancelled. -/
inductive ServerInput (Task : Type u) (Caller : Type v) where
  | arrive (task : Task) (request : Request Caller)
  | finish (task : Task) (response : HandlerResponse)
  | fail (task : Task)
  | elapse (duration : Nat)
  | cleanup

variable {Task : Type u} [DecidableEq Task] {Caller : Type v}

namespace ServerState

variable (config : IdempotencyConfig) (state : ServerState Task Caller)

def enter (task : Task) (running : Running Caller) (store : IdempotencyStore) :
    ServerState Task Caller :=
  { state with store := store, running := update state.running task (some running) }

def leave (task : Task) (store : IdempotencyStore) : ServerState Task Caller :=
  { state with store := store, running := update state.running task none }

/-- A task is at most one request at a time. -/
def step : ServerInput Task Caller -> ServerState Task Caller
  | .arrive task request =>
    match state.running task with
    | some _ => state
    | none =>
      match beginDispatch config state.store state.now request with
      | (.executing idemKey, left) => state.enter task ⟨idemKey, request⟩ left
      | (_, left) => { state with store := left }
  | .finish task response =>
    match state.running task with
    | none => state
    | some running =>
      match complete config state.store state.now running.idemKey response with
      | (.error _, left) => state.leave task left
      | (.ok _, left) =>
        { state.leave task left with
          produced := update state.produced running.idemKey
            (some (running.request, response.cached state.now)) }
  | .fail task =>
    match state.running task with
    | none => state
    | some running => state.leave task (state.store.unmarkProcessing running.idemKey)
  | .elapse duration => { state with now := state.now + duration }
  | .cleanup => { state with store := state.store.cleanup config state.now }

/-- A response is cached under the key and has not expired. -/
def Live (idemKey : String) : Prop :=
  ∃ cached, state.store.cache.lookup idemKey = some cached ∧
    Not (config.cacheTtl < state.now - cached.createdAt)

def inProgress (task : Task) : Option String := (state.running task).map Running.idemKey

def OneEach : Prop :=
  ∀ first second idemKey, state.inProgress first = some idemKey ->
    state.inProgress second = some idemKey -> first = second

/-- The next request with the key has its handler called. -/
def Usable (idemKey : String) : Prop :=
  ∀ request : Request Caller, request.handledKey = some idemKey ->
    (beginDispatch config state.store state.now request).1 = .executing idemKey

end ServerState

def idempotencyServer (config : IdempotencyConfig) (start : Int) :
    Machine (ServerState Task Caller) (ServerInput Task Caller) where
  initial := { now := start }
  step := ServerState.step config

def Request.SameAs (request other : Request Caller) : Prop :=
  request.method = other.method ∧ request.path = other.path ∧ request.caller = other.caller

/-- No handler is called while a live response is cached, a handler that fails
leaves its key usable, and a response is replayed to requests like the one that it
was made for. -/
structure Orderly (config : IdempotencyConfig) (state : ServerState Task Caller)
    (input : ServerInput Task Caller) : Prop where
  fresh : ∀ task request idemKey, input = .arrive task request -> state.running task = none ->
    (beginDispatch config state.store state.now request).1 = .executing idemKey ->
      Not (state.Live config idemKey)
  usable : ∀ task running, input = .fail task -> state.running task = some running ->
    (state.step config input).Usable config running.idemKey
  replayed : ∀ task request cached, input = .arrive task request ->
    state.running task = none ->
    (beginDispatch config state.store state.now request).1 = .replayed cached ->
      ∃ idemKey producer, request.handledKey = some idemKey ∧
        state.produced idemKey = some (producer, cached) ∧ producer.SameAs request

/-- A request that names a key with a live response is like the request which the
response was made for. -/
def SameSender (config : IdempotencyConfig) (state : ServerState Task Caller)
    (input : ServerInput Task Caller) : Prop :=
  ∀ task request idemKey, input = .arrive task request -> state.running task = none ->
    request.handledKey = some idemKey -> state.Live config idemKey ->
      ∀ producer cached, state.produced idemKey = some (producer, cached) ->
        producer.SameAs request

/-! ## What holds in every state -/

/-- The marks are those of the running handlers, a key for which a handler runs has
no entry, and every entry is what was produced last under its key. -/
structure Sound (state : ServerState Task Caller) : Prop where
  holders : SoleHolders state.inProgress state.store.processing
  marked : ∀ idemKey ∈ state.store.processing, ∃ task,
    state.inProgress task = some idemKey
  absent : ∀ task idemKey, state.inProgress task = some idemKey ->
    ∀ entry ∈ state.store.cache, entry.1 ≠ idemKey
  produced : ∀ entry ∈ state.store.cache, ∃ producer,
    state.produced entry.1 = some (producer, entry.2)

variable {config : IdempotencyConfig} {state : ServerState Task Caller}

variable {task : Task} {running : Running Caller}

omit [DecidableEq Task] in
theorem inProgress_eq
    (runs : state.running task = some running) : state.inProgress task = some running.idemKey :=
  congrArg _ runs

@[simp] theorem inProgress_enter_self (task : Task) (running : Running Caller)
    (store : IdempotencyStore) :
    (state.enter task running store).inProgress task = some running.idemKey :=
  inProgress_eq (update_self task _ _)

@[simp] theorem inProgress_leave_self (task : Task) (store : IdempotencyStore) :
    (state.leave task store).inProgress task = none := by
  have ended : (state.leave task store).running task = none := update_self task _ _
  unfold ServerState.inProgress
  rw [ended]
  rfl

theorem inProgress_enter_of_ne {other : Task} (apart : other ≠ task)
    (running : Running Caller) (store : IdempotencyStore) :
    (state.enter task running store).inProgress other = state.inProgress other :=
  congrArg (Option.map Running.idemKey) (update_of_ne apart _ _)

theorem inProgress_leave_of_ne {other : Task} (apart : other ≠ task) (store : IdempotencyStore) :
    (state.leave task store).inProgress other = state.inProgress other :=
  congrArg (Option.map Running.idemKey) (update_of_ne apart _ _)

variable {now : Int}

omit [DecidableEq Task] in
theorem Sound.shrink (sound : Sound state) {store : IdempotencyStore}
    (marks : store.processing = state.store.processing)
    (entries : ∀ entry ∈ store.cache, entry ∈ state.store.cache) :
    Sound { state with store := store, now := now } where
  holders := marks ▸ sound.holders
  marked := fun idemKey mark => sound.marked idemKey (marks ▸ mark)
  absent := fun task idemKey runs entry member =>
    sound.absent task idemKey runs entry (entries entry member)
  produced := fun entry member => sound.produced entry (entries entry member)

theorem Sound.enter (sound : Sound state)
    (idle : state.running task = none) (free : running.idemKey ∉ state.store.processing)
    (missing : ∀ entry ∈ state.store.cache, entry.1 ≠ running.idemKey) :
    Sound (state.enter task running (state.store.markProcessing running.idemKey)) where
  holders := by
    change SoleHolders _ (state.store.processing.insert running.idemKey)
    rw [List.insert_of_not_mem free]
    refine sound.holders.insert task free ?_ ?_
    · intro held holding
      rw [inProgress_enter_self] at holding
      exact (Option.some.inj holding).symm
    · intro other held apart holding
      rw [inProgress_enter_of_ne apart] at holding
      exact holding
  marked := by
    intro other mark
    rcases List.mem_insert_iff.mp mark with rfl | before
    · exact ⟨task, inProgress_enter_self task running _⟩
    · rcases sound.marked other before with ⟨holder, holding⟩
      have apart : holder ≠ task := by
        rintro rfl
        unfold ServerState.inProgress at holding
        rw [idle] at holding
        cases holding
      exact ⟨holder, (inProgress_enter_of_ne apart running _).trans holding⟩
  absent := by
    intro other held holding entry member
    by_cases here : other = task
    · rw [here, inProgress_enter_self] at holding
      exact Option.some.inj holding ▸ missing entry member
    · rw [inProgress_enter_of_ne here] at holding
      exact sound.absent other held holding entry member
  produced := sound.produced

variable {idemKey : String}

theorem Sound.leave (sound : Sound state) (holds : state.inProgress task = some idemKey) :
    Sound (state.leave task (state.store.unmarkProcessing idemKey)) where
  holders := sound.holders.release holds (inProgress_leave_self task _)
    fun other apart => inProgress_leave_of_ne apart _
  marked := by
    intro other mark
    have ⟨before, different⟩ := List.mem_filter.mp mark
    rw [Bool.not_eq_true', decide_eq_false_iff_not] at different
    rcases sound.marked other before with ⟨holder, holding⟩
    refine ⟨holder, (inProgress_leave_of_ne ?_ _).trans holding⟩
    rintro rfl
    exact different (Option.some.inj (holding.symm.trans holds))
  absent := by
    intro other held holding entry member
    have apart : other ≠ task := by
      rintro rfl
      rw [inProgress_leave_self] at holding
      cases holding
    rw [inProgress_leave_of_ne apart] at holding
    exact sound.absent other held holding entry member
  produced := sound.produced

omit [DecidableEq Task] in
theorem Sound.store (sound : Sound state) {response : CachedResponse}
    {stored : IdempotencyStore} (ended : ∀ task, state.inProgress task ≠ some running.idemKey)
    (done : state.store.set config running.idemKey response = .ok stored)
    (missing : ∀ entry ∈ state.store.cache, entry.1 ≠ running.idemKey) : Sound { state with
      store := stored
      produced := update state.produced running.idemKey (some (running.request, response)) }
    where
  holders := (IdempotencyStore.set_processing config done).symm ▸ sound.holders
  marked := fun idemKey mark =>
    sound.marked idemKey (IdempotencyStore.set_processing config done ▸ mark)
  absent := by
    intro task held holding entry member
    rcases IdempotencyStore.mem_of_set config done member with rfl | before
    · rintro rfl
      exact ended task holding
    · exact sound.absent task held holding entry before
  produced := by
    intro entry member
    rcases IdempotencyStore.mem_of_set config done member with rfl | before
    · exact ⟨running.request, update_self _ _ _⟩
    · rcases sound.produced entry before with ⟨producer, made⟩
      exact ⟨producer, (update_of_ne (missing entry before) _ _).trans made⟩

variable {request : Request Caller}

theorem beginDispatch_eq {store : IdempotencyStore} (handled : request.handledKey = some idemKey) :
    beginDispatch config store now request = match (store.get config now idemKey).1 with
      | some cached => (.replayed cached, (store.get config now idemKey).2)
      | none =>
        if idemKey ∈ store.processing then (.duplicate, (store.get config now idemKey).2)
        else (.executing idemKey, (store.get config now idemKey).2.markProcessing idemKey) := by
  have marks : (store.get config now idemKey).2.processing = store.processing :=
    IdempotencyStore.get_processing config now idemKey
  unfold beginDispatch
  rw [handled]
  dsimp only
  generalize store.get config now idemKey = answer at marks ⊢
  rcases answer with ⟨found, left⟩
  cases found with
  | some cached => rfl
  | none =>
    change left.processing = store.processing at marks
    unfold IdempotencyStore.isProcessing
    simp only [marks, decide_eq_true_eq]

theorem handled_of_beginDispatch {store : IdempotencyStore}
    (admitted : (beginDispatch config store now request).1 ≠ .passedOn) :
    ∃ idemKey, request.handledKey = some idemKey := by
  cases handled : request.handledKey with
  | some idemKey => exact ⟨idemKey, rfl⟩
  | none =>
    unfold beginDispatch at admitted
    rw [handled] at admitted
    exact absurd rfl admitted

theorem Sound.arrive (sound : Sound state) (task : Task) (request : Request Caller) :
    Sound (state.step config (.arrive task request)) := by
  unfold ServerState.step
  dsimp only
  cases idle : state.running task with
  | some running => exact sound
  | none =>
    dsimp only
    cases handled : request.handledKey with
    | none =>
      unfold beginDispatch
      rw [handled]
      exact sound
    | some idemKey =>
      have marks : (state.store.get config state.now idemKey).2.processing =
          state.store.processing := IdempotencyStore.get_processing config state.now idemKey
      have smaller : Sound { state with
          store := (state.store.get config state.now idemKey).2, now := state.now } :=
        sound.shrink marks fun entry member => IdempotencyStore.mem_get config member
      rw [beginDispatch_eq handled]
      cases answer : (state.store.get config state.now idemKey).1 with
      | some cached => exact smaller
      | none =>
        by_cases marked : idemKey ∈ state.store.processing
        · simp only [if_pos marked]
          exact smaller
        · simp only [if_neg marked]
          have free : (⟨idemKey, request⟩ : Running Caller).idemKey ∉
              (state.store.get config state.now idemKey).2.processing :=
            fun mark => marked (marks ▸ mark)
          exact smaller.enter idle free
            fun entry member => IdempotencyStore.get_none config answer member

theorem Sound.finish (sound : Sound state) (task : Task) (response : HandlerResponse) :
    Sound (state.step config (.finish task response)) := by
  unfold ServerState.step
  dsimp only
  cases runs : state.running task with
  | none => exact sound
  | some running =>
    have holds := inProgress_eq runs
    have left := sound.leave holds
    unfold complete
    dsimp only
    cases done : state.store.set config running.idemKey (response.cached state.now) with
    | error failure => exact left
    | ok stored =>
      have ended (other : Task) :
          (state.leave task (state.store.unmarkProcessing running.idemKey)).inProgress other ≠
            some running.idemKey := by
        intro holding
        have mark := left.holders.known other _ holding
        have different := (List.mem_filter.mp mark).2
        rw [decide_eq_true rfl] at different
        cases different
      exact left.store ended (IdempotencyStore.set_unmarkProcessing config done _)
        (sound.absent task _ holds)

theorem sound_step (sound : Sound state) (input : ServerInput Task Caller) :
    Sound (state.step config input) := by
  cases input with
  | arrive task request => exact sound.arrive task request
  | finish task response => exact sound.finish task response
  | fail task =>
    unfold ServerState.step
    dsimp only
    cases runs : state.running task with
    | none => exact sound
    | some running => exact sound.leave (inProgress_eq runs)
  | elapse duration => exact sound.shrink rfl fun _ member => member
  | cleanup => exact sound.shrink rfl fun _ member => List.mem_of_mem_filter member

omit [DecidableEq Task] in
theorem sound_initial (start : Int) : Sound ({ now := start } : ServerState Task Caller) where
  holders :=
    { sole := fun _ _ _ holding => by cases holding
      known := fun _ _ holding => by cases holding }
  marked := fun _ mark => by cases mark
  absent := fun _ _ holding => by cases holding
  produced := fun _ member => by cases member

omit [DecidableEq Task] in
theorem Sound.oneEach (sound : Sound state) : state.OneEach :=
  sound.holders.sole

/-! ## Which requests are answered from the cache -/

omit [DecidableEq Task] in
theorem not_live (missed : (state.store.get config state.now idemKey).1 = none) :
    Not (state.Live config idemKey) := by
  rintro ⟨cached, found, alive⟩
  exact alive (IdempotencyStore.get_none_of_expired config missed found)

omit [DecidableEq Task] in
theorem beginDispatch_executing_iff :
    (beginDispatch config state.store state.now request).1 = .executing idemKey <->
      request.handledKey = some idemKey ∧ idemKey ∉ state.store.processing ∧
        (state.store.get config state.now idemKey).1 = none := by
  constructor
  · intro admitted
    have taken : (beginDispatch config state.store state.now request).1 ≠ .passedOn := by
      rw [admitted]
      exact nofun
    have ⟨key, handled⟩ := handled_of_beginDispatch taken
    rw [beginDispatch_eq handled] at admitted
    cases missed : (state.store.get config state.now key).1 with
    | some cached =>
      rw [missed] at admitted
      cases admitted
    | none =>
      rw [missed] at admitted
      dsimp only at admitted
      split at admitted
      · cases admitted
      case isFalse free =>
        cases admitted
        exact ⟨handled, free, missed⟩
  · rintro ⟨handled, free, missed⟩
    rw [beginDispatch_eq handled, missed]
    simp only [if_neg free]

omit [DecidableEq Task] in
theorem replayed_of_beginDispatch {cached : CachedResponse}
    (admitted : (beginDispatch config state.store state.now request).1 = .replayed cached) :
    ∃ idemKey, request.handledKey = some idemKey ∧
      state.store.cache.lookup idemKey = some cached ∧ state.Live config idemKey := by
  have taken : (beginDispatch config state.store state.now request).1 ≠ .passedOn := by
    rw [admitted]
    exact nofun
  have ⟨idemKey, handled⟩ := handled_of_beginDispatch taken
  rw [beginDispatch_eq handled] at admitted
  refine ⟨idemKey, handled, ?_⟩
  cases found : (state.store.get config state.now idemKey).1 with
  | some entry =>
    rw [found] at admitted
    cases admitted
    have ⟨here, alive⟩ := IdempotencyStore.get_some config found
    exact ⟨here, _, here, alive⟩
  | none =>
    rw [found] at admitted
    dsimp only at admitted
    split at admitted <;> cases admitted

omit [DecidableEq Task] in
theorem beginDispatch_of_live
    (handled : request.handledKey = some idemKey) (live : state.Live config idemKey) :
    ∃ cached, state.store.cache.lookup idemKey = some cached ∧
      (beginDispatch config state.store state.now request).1 = .replayed cached := by
  cases found : (state.store.get config state.now idemKey).1 with
  | none => exact absurd live (not_live found)
  | some cached =>
    refine ⟨cached, (IdempotencyStore.get_some config found).1, ?_⟩
    rw [beginDispatch_eq handled, found]

theorem usable_after_fail (sound : Sound state) (runs : state.running task = some running) :
    (state.step config (.fail task)).Usable config running.idemKey := by
  have ended : state.step config (.fail task) =
      state.leave task (state.store.unmarkProcessing running.idemKey) := by
    unfold ServerState.step
    simp only [runs]
  rw [ended]
  intro request handled
  refine beginDispatch_executing_iff.mpr ⟨handled, ?_, ?_⟩
  · intro mark
    have different := (List.mem_filter.mp mark).2
    rw [decide_eq_true rfl] at different
    cases different
  · cases found : ((state.leave task (state.store.unmarkProcessing running.idemKey)).store.get
        config state.now running.idemKey).1 with
    | none => exact found
    | some cached =>
      have entry := Dict.mem_of_lookup (IdempotencyStore.get_some config found).1
      exact absurd rfl (sound.absent task _ (inProgress_eq runs) _ entry)

theorem orderly_iff (sound : Sound state) (input : ServerInput Task Caller) :
    Orderly config state input <-> SameSender config state input := by
  constructor
  · intro orderly task request idemKey arrives idle handled live producer cached made
    rcases beginDispatch_of_live handled live with ⟨entry, found, admitted⟩
    rcases orderly.replayed task request entry arrives idle admitted with
      ⟨other, maker, otherHandled, otherMade, same⟩
    rw [handled] at otherHandled
    cases otherHandled
    rw [made] at otherMade
    cases otherMade
    exact same
  · intro sender
    refine ⟨?_, ?_, ?_⟩
    · intro task request idemKey _ _ admitted
      exact not_live (beginDispatch_executing_iff.mp admitted).2.2
    · rintro task running rfl runs
      exact usable_after_fail sound runs
    · intro task request cached arrives idle admitted
      rcases replayed_of_beginDispatch admitted with ⟨idemKey, handled, found, live⟩
      rcases sound.produced _ (Dict.mem_of_lookup found) with ⟨producer, made⟩
      exact ⟨idemKey, producer, handled, made,
        sender task request idemKey arrives idle handled live producer cached made⟩

/-- One handler runs at most for each key, none while a live response is cached, and a
failed one leaves its key usable; replays go to requests like their own exactly if no
other request names a key with a live response. -/
theorem dispatch_orderly_exactly (config : IdempotencyConfig) (start : Int)
    (inputs : List (ServerInput Task Caller)) :
    ((idempotencyServer config start).EveryState ServerState.OneEach inputs ∧
        (idempotencyServer config start).EveryStep (Orderly config) inputs) <->
      (idempotencyServer config start).EveryStep (SameSender config) inputs := by
  have throughout (before : List (ServerInput Task Caller)) :
      ((idempotencyServer config start).after before).OneEach := by
    have sound := (idempotencyServer config start).invariant_after Sound (sound_initial start)
      (fun _ input reached => sound_step reached input) before
    exact sound.oneEach
  refine (and_iff_right fun before _ _ => throughout before).trans ?_
  exact (idempotencyServer config start).everyStep_iff_everyStep Sound (sound_initial start)
    (fun _ input reached _ => sound_step reached input)
    (fun _ input reached => orderly_iff reached input) inputs

def payment : Request String where
  method := "POST"
  path := "/api/payments"
  caller := "alice"
  idempotencyKey := some "k1"

def removal : Request String where
  method := "PUT"
  path := "/api/users"
  caller := "bob"
  idempotencyKey := some "k1"

def paid : HandlerResponse where
  statusCode := 200
  headers := [("content-type", "application/json")]
  bodyIterator := [.text "paid"]

/-- Another caller is told what the first one was told, for another request. -/
theorem replayed_to_another_caller : Not (((idempotencyServer {} 0).EveryState ServerState.OneEach
        [.arrive 0 payment, .finish 0 paid, .arrive 1 removal] ∧
      (idempotencyServer {} 0).EveryStep (Orderly {})
        ([.arrive 0 payment, .finish 0 paid, .arrive 1 removal] :
          List (ServerInput Nat String)))) := by
  rintro ⟨_, every⟩
  have last := every [.arrive 0 payment, .finish 0 paid] (.arrive 1 removal) [] rfl
  rcases last.replayed 1 removal (paid.cached 0) rfl rfl (by rfl) with
    ⟨idemKey, producer, handled, made, same⟩
  cases handled
  cases made
  exact absurd same.1 (by decide)

end Web
end BreadMind
