import BreadMind.Settings.Locking

namespace BreadMind
namespace Settings

open Execution

/-!
# The operations on one key follow one another

As long as no call is broken off between its write and its return, what is
stored under a key is what the successful operations make of the first value,
one after the other in the order in which they wrote, and a call that fails
has changed nothing.  Once all of them have returned, the live copy of the
runtime configuration is the stored value.

An exception of the audit sink, a cancellation after the write, or a store that
raises with the write done breaks a call off: it is lost to its caller and to
the subscribers, but not to the store.
-/

/-- An operation that has changed the stored value, with the identifiers its
validator drew. -/
structure Turn where
  call : Nat
  operation : Operation
  draws : List String

variable (config : Config)

def Turn.apply (stored : Json) (turn : Turn) : Except Stopped Json :=
  turn.operation.applied config turn.draws stored

/-- The call has written, and has returned a success or is about to. -/
def Stage.carried : Stage -> Bool
  | auditing .. => true
  | reloading .. => true
  | emitting _ result => result.ok
  | returned result => result.ok
  | _ => false

def Call.storesUnder (key : String) (running : Call) : Prop :=
  running.request.operation.onStore = true ∧ running.request.key = key

structure InTurn (first : Json) (state : State) (key : String) (turns : List Turn) : Prop where
  once : (turns.map Turn.call).Nodup
  carried : ∀ turn ∈ turns, ∃ running,
    state.calls turn.call = some running ∧ running.request.operation = turn.operation ∧
      running.storesUnder key ∧ running.stage.carried = true
  complete : ∀ call running, state.calls call = some running -> running.storesUnder key ->
    running.stage.carried = true -> call ∈ turns.map Turn.call
  leads : turns.foldlM (Turn.apply config) first = .ok (state.stored key)

variable (state : State)

/-- No operation on the store is under way for the key. -/
def Quiet (key : String) : Prop :=
  ∀ call running, state.calls call = some running -> running.storesUnder key ->
    running.stage.ended = true

variable (start : Start)

/-- The stored value under every key is that of the successful operations in
some order, and the live copy of a registered key follows it. -/
def Settled (state : State) : Prop :=
  (∀ key, ∃ turns, InTurn config (start.stored key) state key turns) ∧
    ∀ key ∈ runtimeConfigKeys, .runtimeConfig key ∈ config.subscriptions ->
      Quiet state key -> state.copies key = state.stored key

/-- The call ends although its write has taken effect. -/
def breaksOff : Stage -> Event -> Bool
  | .writing .., .wrote (.failedLate _) => true
  | .auditing .., .audited (.error _) => true
  | .auditing .., .cancelled => true
  | .reloading .., .cancelled => true
  | .emitting .., .cancelled => true
  | _, _ => false

/-- No operation on the store is broken off, and no vault operation borrows the
name of a runtime configuration key. -/
def Unbroken : Input -> Prop
  | .resume id event => ∀ running, state.calls id = some running ->
      (running.request.operation.onStore = true -> breaksOff running.stage event = false) ∧
        (running.request.operation.onStore = false -> running.request.key ∉ runtimeConfigKeys)
  | _ => True

/-! ## Turns -/

variable (request : Request) (approval : Option String)

theorem stop_uncarried (stopped : Stopped) : (stop request approval stopped).carried = false := by
  unfold stop
  split
  · rfl
  · split <;> rfl

theorem begin_uncarried
    (draws : List String) : (begin config request approval draws).carried = false := by
  unfold begin
  split
  · split
    · rfl
    · exact stop_uncarried request approval _
  · rfl

theorem afterRead_uncarried (draws : List String) (prepared stored : Json) :
    (afterRead config request approval draws prepared stored).carried = false := by
  unfold afterRead
  dsimp only
  split
  · rfl
  · exact stop_uncarried request approval _

section Resumed

variable {config : Config} {state : State} {call : Nat} {request : Request}
variable {approval : Option String} {stage : Stage} {event : Event} {change : Change}

theorem Resumes.carries (resumes : Resumes config state call request approval stage event change)
    (onStore : request.operation.onStore = true) (unbroken : breaksOff stage event = false) :
    (change.stored = none ∧ change.stage.carried = stage.carried) ∨
      (∃ old new, stage = .writing old new ∧ change.stored = some new ∧
        change.stage.carried = true) := by
  cases resumes with
  | acquired => exact .inl ⟨rfl, rfl⟩
  | unread prepared error draws => exact .inl ⟨rfl, stop_uncarried request approval (.raised error)⟩
  | read prepared draws => exact .inl ⟨rfl, afterRead_uncarried config request approval draws _ _⟩
  | vault prepared failure change called =>
    rw [(vaultCall_offStore called).1] at onStore
    cases onStore
  | written old new => exact .inr ⟨old, new, rfl, rfl, rfl⟩
  | unwritten old new error => exact .inl ⟨rfl, stop_uncarried request approval (.raised error)⟩
  | writtenLate => cases unbroken
  | audited => exact .inl ⟨rfl, rfl⟩
  | unaudited => cases unbroken
  | reloaded | gathered | emitted => exact .inl ⟨rfl, rfl⟩
  | cancelled stage runs =>
    left
    cases stage with
    | acquiring | locked | writing => exact ⟨rfl, rfl⟩
    | auditing | reloading | emitting => cases unbroken
    | returned => cases runs
    | raised => cases runs

theorem Resumes.offStore_stores
    (resumes : Resumes config state call request approval stage event change)
    (current : stage.Current config request (state.stored request.key))
    (offStore : request.operation.onStore = false) : change.stored = none := by
  cases resumes with
  | written | writtenLate =>
    rw [current.1] at offStore
    cases offStore
  | vault prepared failure change called => exact (vaultCall_offStore called).2.1
  | _ => rfl

end Resumed

namespace InTurn

variable {config : Config} {first : Json} {state after : State} {key : String} {turns : List Turn}

theorem keep (inTurn : InTurn config first state key turns)
    (stored : after.stored key = state.stored key)
    (forward : ∀ call running, state.calls call = some running -> running.storesUnder key ->
      running.stage.carried = true -> ∃ later, after.calls call = some later ∧
        later.request = running.request ∧ later.stage.carried = true)
    (backward : ∀ call later, after.calls call = some later -> later.storesUnder key ->
      later.stage.carried = true -> ∃ running, state.calls call = some running ∧
        running.request = later.request ∧ running.stage.carried = true) :
    InTurn config first after key turns where
  once := inTurn.once
  carried := by
    intro turn member
    rcases inTurn.carried turn member with ⟨running, known, operation, under, carried⟩
    rcases forward turn.call running known under carried with ⟨later, found, request, still⟩
    unfold Call.storesUnder at under ⊢
    rw [← request] at operation under
    exact ⟨later, found, operation, under, still⟩
  complete := by
    intro call later found under carried
    rcases backward call later found under carried with ⟨running, known, request, before⟩
    unfold Call.storesUnder at under
    rw [← request] at under
    exact inTurn.complete call running known under before
  leads := by
    rw [stored]
    exact inTurn.leads

variable {running : Call}

theorem place (inTurn : InTurn config first state key turns) {id : Nat}
    (fresh : state.calls id = none) (uncarried : running.stage.carried = false) :
    InTurn config first (state.place id running) key turns := by
  refine inTurn.keep rfl ?_ ?_
  · intro call before known _ carried
    have different : call ≠ id := by
      intro same
      rw [same, fresh] at known
      cases known
    refine ⟨before, ?_, rfl, carried⟩
    unfold State.place
    dsimp only
    rw [Function.update_of_ne different]
    exact known
  · intro call later found _ carried
    rcases place_calls found with ⟨_, same⟩ | ⟨_, known⟩
    · rw [same, uncarried] at carried
      cases carried
    · exact ⟨later, known, rfl, carried⟩

theorem withEntries (inTurn : InTurn config first state key turns)
    (entries : String -> Option PendingEntry) :
    InTurn config first { state with entries := entries } key turns :=
  ⟨inTurn.once, inTurn.carried, inTurn.complete, inTurn.leads⟩

variable {change : Change}

theorem resumeKeep (inTurn : InTurn config first state key turns) {id : Nat}
    (known : state.calls id = some running)
    (stored : (state.apply id running change).stored key = state.stored key)
    (same : running.storesUnder key -> change.stage.carried = running.stage.carried) :
    InTurn config first (state.apply id running change) key turns := by
  refine inTurn.keep stored ?_ ?_
  · intro call before here under carried
    by_cases equal : call = id
    · rw [equal, known] at here
      cases here
      rw [equal]
      exact ⟨_, apply_calls_self state id running change, rfl, (same under).trans carried⟩
    · refine ⟨before, ?_, rfl, carried⟩
      rw [apply_calls_other state running change equal]
      exact here
  · intro call later here under carried
    rcases apply_calls here with ⟨equal, became⟩ | ⟨_, before⟩
    · rw [became] at under carried ⊢
      rw [equal]
      exact ⟨running, known, rfl, (same under).symm.trans carried⟩
    · exact ⟨later, before, rfl, carried⟩

theorem resumeWrite (inTurn : InTurn config first state key turns) {id : Nat}
    {new : Json} (known : state.calls id = some running)
    (under : running.storesUnder key) (before : running.stage.carried = false)
    (stores : change.stored = some new) (carries : change.stage.carried = true)
    (draws : List String)
    (computed : running.request.operation.applied config draws (state.stored key) = .ok new) :
    InTurn config first (state.apply id running change) key
      (turns ++ [⟨id, running.request.operation, draws⟩]) where
  once := by
    rw [List.map_append, List.nodup_append]
    refine ⟨inTurn.once, List.nodup_singleton _, ?_⟩
    intro call member other last
    rw [List.map_singleton, List.mem_singleton] at last
    rcases List.mem_map.mp member with ⟨turn, inside, equal⟩
    intro same
    rcases inTurn.carried turn inside with ⟨found, here, _, _, carried⟩
    rw [equal, same, last] at here
    rw [known] at here
    cases here
    rw [before] at carried
    cases carried
  carried := by
    intro turn member
    rcases List.mem_append.mp member with old | last
    · rcases inTurn.carried turn old with ⟨found, here, operation, too, carried⟩
      have different : turn.call ≠ id := by
        intro same
        rw [same, known] at here
        cases here
        rw [before] at carried
        cases carried
      refine ⟨found, ?_, operation, too, carried⟩
      rw [apply_calls_other state running change different]
      exact here
    · rw [List.mem_singleton.mp last]
      exact ⟨_, apply_calls_self state id running change, rfl, under, carries⟩
  complete := by
    intro call later here too carried
    rw [List.map_append]
    rcases apply_calls here with ⟨equal, _⟩ | ⟨_, found⟩
    · rw [equal]
      exact List.mem_append_right _ List.mem_cons_self
    · exact List.mem_append_left _ (inTurn.complete call later found too carried)
  leads := by
    have stored : (state.apply id running change).stored key = new := by
      unfold State.apply
      dsimp only
      rw [stores, under.2]
      exact Function.update_self ..
    rw [List.foldlM_append, inTurn.leads, stored]
    change List.foldlM (Turn.apply config) (state.stored key) [_] = _
    rw [List.foldlM_cons]
    change (running.request.operation.applied config draws (state.stored key) >>= _) = _
    rw [computed]
    rfl

theorem resumed (inTurn : InTurn config first state key turns) (locked : Locked config state)
    {id : Nat} {event : Event} (known : state.calls id = some running)
    (resumes : Resumes config state id running.request running.approval running.stage event change)
    (unbroken : running.request.operation.onStore = true -> breaksOff running.stage event = false) :
    ∃ later, InTurn config first (state.apply id running change) key later := by
  have untouched : change.stored = none ->
      (state.apply id running change).stored key = state.stored key := by
    intro none
    unfold State.apply
    dsimp only
    rw [none]
  have current := locked.current id running known
  cases onStore : running.request.operation.onStore with
  | false =>
    refine ⟨turns, inTurn.resumeKeep known (untouched (resumes.offStore_stores current onStore)) ?_⟩
    intro under
    rw [under.1] at onStore
    cases onStore
  | true =>
    rcases resumes.carries onStore (unbroken onStore) with
      ⟨none, same⟩ | ⟨old, new, writing, stores, carries⟩
    · exact ⟨turns, inTurn.resumeKeep known (untouched none) (fun _ => same)⟩
    · rw [writing] at current
      rcases current.2 with ⟨draws, computed⟩
      by_cases here : running.request.key = key
      · rw [here] at computed
        refine ⟨_, inTurn.resumeWrite known ⟨onStore, here⟩ ?_ stores carries draws computed⟩
        rw [writing]
        rfl
      · refine ⟨turns, inTurn.resumeKeep known (apply_stored_other state id change here) ?_⟩
        intro under
        exact absurd under.2 here

end InTurn

/-! ## The live copy -/

theorem runtimeConfig_reloads {key : String} (live : key ∈ runtimeConfigKeys) (other : String) :
    (Subscription.runtimeConfig key).reloads other = true <-> key = other := by
  have exact : ∀ name ∈ runtimeConfigKeys,
      ":*".toList.isSuffixOf name.toList = false := by decide
  unfold Subscription.reloads
  rw [if_neg (by rw [Subscription.pattern, exact key live]; decide)]
  exact beq_iff_eq

def Dispatching : Prop :=
  ∀ call running old new auditId tasks, state.calls call = some running ->
    running.stage = .reloading old new auditId tasks -> ∀ task ∈ tasks,
      task.subscription.reloads running.request.key = true

theorem Dispatching.resumed {config : Config} {state : State} (dispatching : Dispatching state)
    {id : Nat} {running : Call} {event : Event} {change : Change}
    (known : state.calls id = some running)
    (resumes : Resumes config state id running.request running.approval running.stage event change) :
    Dispatching (state.apply id running change) := by
  rcases running with ⟨request, approval, stage⟩
  dsimp only at resumes
  intro call later old new auditId tasks found reloading task member
  rcases apply_calls found with ⟨_, same⟩ | ⟨_, before⟩
  · rw [same] at reloading ⊢
    dsimp only at reloading ⊢
    have stops : ∀ stopped : Stopped,
        stop request approval stopped ≠ .reloading old new auditId tasks := by
      intro stopped same
      have ended := stop_ended request approval stopped
      rw [same] at ended
      cases ended
    cases resumes with
    | acquired => cases reloading
    | unread prepared error draws => exact absurd reloading (stops (.raised error))
    | read prepared draws onStore =>
      unfold afterRead at reloading
      dsimp only at reloading
      split at reloading
      · cases reloading
      · exact absurd reloading (stops _)
    | vault prepared failure change called =>
      rcases (vaultCall_offStore called).2.2.2 with audits | ended
      · rw [audits] at reloading
        cases reloading
      · rw [reloading] at ended
        cases ended
    | written => cases reloading
    | unwritten old new error => exact absurd reloading (stops (.raised error))
    | writtenLate old new error => exact absurd reloading (stops (.raised error))
    | audited =>
      cases reloading
      rcases List.mem_map.mp member with ⟨subscription, listed, equal⟩
      rw [← equal]
      exact (List.mem_filter.mp listed).2
    | unaudited old new error => exact absurd reloading (stops (.raised error))
    | reloaded first second number before index subscription failure waiting =>
      cases reloading
      have all := dispatching id _ _ _ _ _ known rfl
      rcases List.mem_or_eq_of_mem_set member with old | new
      · exact all task old
      · have ran := all _ (List.mem_of_getElem? waiting)
        rw [new]
        exact ran
    | gathered | emitted | cancelled => cases reloading
  · exact dispatching call later old new auditId tasks before reloading task member

def Stage.announces (key : String) : Stage -> Prop
  | auditing .. => True
  | reloading _ _ _ tasks => ∃ index : Nat,
    tasks[index]? = some (ReloadTask.mk (.runtimeConfig key) none)
  | _ => False

/-- The live copy is the stored value, or a call is about to make it so. -/
def Follows (key : String) : Prop :=
  state.copies key = state.stored key ∨
    ∃ call running, state.calls call = some running ∧
      running.storesUnder key ∧ running.stage.announces key

namespace Follows

variable {config : Config} {state : State} {key : String}

variable {running : Call}

theorem place (follows : Follows state key) {id : Nat}
    (fresh : state.calls id = none) : Follows (state.place id running) key := by
  rcases follows with same | ⟨call, before, known, under, announces⟩
  · exact .inl same
  · have different : call ≠ id := by
      intro same
      rw [same, fresh] at known
      cases known
    refine .inr ⟨call, before, ?_, under, announces⟩
    unfold State.place
    dsimp only
    rw [Function.update_of_ne different]
    exact known

variable {change : Change}

theorem resumeKeep (follows : Follows state key) {id : Nat} (known : state.calls id = some running)
    (copies : (state.apply id running change).copies key = state.copies key)
    (stored : (state.apply id running change).stored key = state.stored key)
    (still : running.storesUnder key -> running.stage.announces key ->
      change.stage.announces key) : Follows (state.apply id running change) key := by
  rcases follows with same | ⟨call, before, here, under, announces⟩
  · left
    rw [copies, stored, same]
  · right
    by_cases equal : call = id
    · rw [equal, known] at here
      cases here
      exact ⟨id, _, apply_calls_self state id running change, under, still under announces⟩
    · refine ⟨call, before, ?_, under, announces⟩
      rw [apply_calls_other state running change equal]
      exact here

variable {event : Event}

theorem copy_of_resumes {config : Config} {state : State} {call : Nat} {request : Request}
    {approval : Option String} {stage : Stage}
    (resumes : Resumes config state call request approval stage event change) {copied : String}
    {value : Json} (copy : change.copy = some (copied, value)) : ∃ old auditId tasks,
      stage = .reloading old value auditId tasks ∧
        ReloadTask.mk (.runtimeConfig copied) none ∈ tasks := by
  cases resumes with
  | vault prepared failure change called =>
    rw [(vaultCall_offStore called).2.2.1] at copy
    cases copy
  | reloaded old new auditId tasks index subscription failure waiting =>
    cases subscription with
    | runtimeConfig name =>
      cases copy
      exact ⟨old, auditId, tasks, rfl, List.mem_of_getElem? waiting⟩
    | other => cases copy
  | acquired | unread | read | written | unwritten | writtenLate | audited | unaudited | gathered
  | emitted | cancelled => cases copy

theorem copies_other {id : Nat} (live : key ∈ runtimeConfigKeys) (dispatching : Dispatching state)
    (known : state.calls id = some running)
    (resumes : Resumes config state id running.request running.approval running.stage event change)
    (different : running.request.key ≠ key) :
    (state.apply id running change).copies key = state.copies key := by
  unfold State.apply
  dsimp only
  cases copy : change.copy with
  | none => rfl
  | some pair =>
    rcases pair with ⟨copied, value⟩
    dsimp only
    rcases copy_of_resumes resumes copy with ⟨old, auditId, tasks, reloading, member⟩
    have reloads := dispatching id running old value auditId tasks known reloading _ member
    rw [Function.update_of_ne]
    intro same
    subst same
    exact different ((runtimeConfig_reloads live _).mp reloads).symm

theorem resumeHere (follows : Follows state key) (registered : .runtimeConfig key ∈ config.subscriptions)
    (live : key ∈ runtimeConfigKeys) (locked : Locked config state) {id : Nat}
    (known : state.calls id = some running) (under : running.storesUnder key)
    (resumes : Resumes config state id running.request running.approval running.stage event change)
    (unbroken : breaksOff running.stage event = false) :
    Follows (state.apply id running change) key := by
  have current := locked.current id running known
  rcases running with ⟨request, approval, stage⟩
  rcases under with ⟨onStore, here⟩
  dsimp only at resumes unbroken onStore here current
  subst here
  cases resumes with
  | acquired | unread | read =>
    exact follows.resumeKeep known rfl rfl (fun _ impossible => impossible.elim)
  | vault prepared failure change called =>
    rw [(vaultCall_offStore called).1] at onStore
    cases onStore
  | written old new => exact .inr ⟨id, _, apply_calls_self .., ⟨onStore, rfl⟩, trivial⟩
  | unwritten => exact follows.resumeKeep known rfl rfl (fun _ impossible => impossible.elim)
  | writtenLate => cases unbroken
  | audited old new auditId =>
    refine follows.resumeKeep known rfl rfl (fun _ _ => ?_)
    have listed : ReloadTask.mk (.runtimeConfig request.key) none ∈
        dispatched config request.key := by
      refine List.mem_map.mpr ⟨.runtimeConfig request.key, ?_, rfl⟩
      exact List.mem_filter.mpr ⟨registered, (runtimeConfig_reloads live _).mpr rfl⟩
    exact List.mem_iff_getElem?.mp listed
  | unaudited => cases unbroken
  | reloaded old new auditId tasks index subscription failure waiting =>
    have stored : state.stored request.key = new := current onStore
    by_cases mine : subscription = .runtimeConfig request.key
    · subst mine
      left
      unfold State.apply
      dsimp only [Subscription.copy]
      rw [Function.update_self, stored]
    · refine follows.resumeKeep known ?_ rfl ?_
      · unfold State.apply
        dsimp only
        cases subscription with
        | other => rfl
        | runtimeConfig name =>
          dsimp only [Subscription.copy]
          rw [Function.update_of_ne]
          intro same
          exact mine (same ▸ rfl)
      · rintro _ ⟨place, outstanding⟩
        refine ⟨place, ?_⟩
        have apart : index ≠ place := by
          intro same
          rw [same, outstanding] at waiting
          exact mine (ReloadTask.mk.inj (Option.some.inj waiting)).1.symm
        rw [List.getElem?_set_ne apart]
        exact outstanding
  | gathered old new auditId tasks all =>
    refine follows.resumeKeep known rfl rfl ?_
    rintro _ ⟨place, outstanding⟩
    have ended := List.all_eq_true.mp all _ (List.mem_of_getElem? outstanding)
    cases ended
  | emitted => exact follows.resumeKeep known rfl rfl (fun _ impossible => impossible.elim)
  | cancelled stage runs =>
    refine follows.resumeKeep known rfl rfl (fun _ announces => ?_)
    cases stage with
    | auditing => cases unbroken
    | reloading => cases unbroken
    | acquiring | locked | writing | emitting | returned | raised => exact announces

end Follows

/-- What an unbroken run keeps. -/
structure Orderly (state : State) : Prop where
  locked : Locked config state
  dispatching : Dispatching state
  inTurn : ∀ key, ∃ turns, InTurn config (start.stored key) state key turns
  follows : ∀ key ∈ runtimeConfigKeys, .runtimeConfig key ∈ config.subscriptions ->
    Follows state key

namespace Orderly

variable {config : Config} {start : Start} {state : State}

theorem place (orderly : Orderly config start state) {id : Nat} {running : Call}
    (fresh : state.calls id = none) (locked : Locked config (state.place id running))
    (uncarried : running.stage.carried = false)
    (still : ∀ old new auditId tasks, running.stage ≠ .reloading old new auditId tasks) :
    Orderly config start (state.place id running) where
  locked := locked
  dispatching := by
    intro call found old new auditId tasks known reloading
    rcases place_calls known with ⟨_, same⟩ | ⟨_, before⟩
    · rw [same] at reloading
      exact absurd reloading (still old new auditId tasks)
    · exact orderly.dispatching call found old new auditId tasks before reloading
  inTurn := by
    intro key
    rcases orderly.inTurn key with ⟨turns, inTurn⟩
    exact ⟨turns, inTurn.place fresh uncarried⟩
  follows := fun key live registered => (orderly.follows key live registered).place fresh

theorem withEntries (orderly : Orderly config start state)
    (entries : String -> Option PendingEntry) :
    Orderly config start { state with entries := entries } where
  locked := ⟨orderly.locked.held, orderly.locked.current⟩
  dispatching := orderly.dispatching
  inTurn := by
    intro key
    rcases orderly.inTurn key with ⟨turns, inTurn⟩
    exact ⟨turns, inTurn.withEntries entries⟩
  follows := orderly.follows

theorem resumed (orderly : Orderly config start state) {id : Nat} {running : Call} {event : Event}
    {change : Change} (known : state.calls id = some running)
    (resumes : Resumes config state id running.request running.approval running.stage event change)
    (unbroken : running.request.operation.onStore = true -> breaksOff running.stage event = false)
    (apart : running.request.operation.onStore = false -> running.request.key ∉ runtimeConfigKeys) :
    Orderly config start (state.apply id running change) where
  locked := orderly.locked.apply known resumes
  dispatching := orderly.dispatching.resumed known resumes
  inTurn := by
    intro key
    rcases orderly.inTurn key with ⟨turns, inTurn⟩
    exact inTurn.resumed orderly.locked known resumes unbroken
  follows := by
    intro key live registered
    have follows := orderly.follows key live registered
    cases onStore : running.request.operation.onStore with
    | true =>
      by_cases here : running.request.key = key
      · exact follows.resumeHere registered live orderly.locked known ⟨onStore, here⟩ resumes
          (unbroken onStore)
      · refine follows.resumeKeep known
          (Follows.copies_other live orderly.dispatching known resumes here)
          (apply_stored_other state id change here) ?_
        intro under
        exact absurd under.2 here
    | false =>
      have different : running.request.key ≠ key := by
        intro same
        exact apart onStore (same ▸ live)
      refine follows.resumeKeep known
        (Follows.copies_other live orderly.dispatching known resumes different)
        (apply_stored_other state id change different) ?_
      intro under
      exact absurd under.2 different

theorem begin_not_reloading (config : Config) (request : Request) (approval : Option String)
    (draws : List String) (old new : Json) (auditId : Option Int) (tasks : List ReloadTask) :
    begin config request approval draws ≠ .reloading old new auditId tasks := by
  intro same
  have free := begin_unlocked config request approval draws
  rw [same] at free
  cases free

theorem step (orderly : Orderly config start state) {input : Input} {after : State}
    {effects : List Effect} (moves : Moves config state input after effects)
    (unbroken : Unbroken state input) : Orderly config start after := by
  have locked := moves.locked orderly.locked
  cases moves with
  | idle => exact orderly
  | unknown => exact orderly
  | refused id request underCap hex draws result fresh denied =>
    exact orderly.place fresh locked denied (fun _ _ _ _ => Stage.noConfusion)
  | queued id request underCap hex draws fresh =>
    refine (orderly.place fresh ?_ rfl (fun _ _ _ _ => Stage.noConfusion)).withEntries _
    exact orderly.locked.place rfl trivial
  | started id request underCap hex draws fresh =>
    exact orderly.place fresh locked (begin_uncarried config request none draws)
      (begin_not_reloading config request none draws)
  | approved id approvalId entry draws fresh =>
    refine (orderly.place fresh ⟨locked.held, locked.current⟩
      (begin_uncarried config entry.run (some approvalId) draws)
      (begin_not_reloading config entry.run (some approvalId) draws)).withEntries _
  | resumed id running event change known resumed =>
    have guard := unbroken running known
    exact orderly.resumed known (resumes_of_resume resumed) guard.1 guard.2

theorem settled (orderly : Orderly config start state) : Settled config start state := by
  refine ⟨orderly.inTurn, ?_⟩
  intro key live registered quiet
  rcases orderly.follows key live registered with same | ⟨call, running, known, under, announces⟩
  · exact same
  · have ended := quiet call running known under
    cases stage : running.stage <;> rw [stage] at ended announces
    all_goals first | exact announces.elim | cases ended

end Orderly

/-- The pipeline of the web application reads the rows of its live keys before
anything can change them; a key whose read raises starts without a copy. -/
def wired (stored : String -> Json) (vault : String -> Option (String × Option Json))
    (unreadable : String -> Bool) : Start where
  stored := stored
  vault := vault
  copies := fun key =>
    if runtimeConfigKeys.contains key && !unreadable key then stored key else .null

theorem orderly_initial (synced : ∀ key ∈ runtimeConfigKeys, start.copies key = start.stored key) :
    Orderly config start (service config start).initial where
  locked := locked_after config start []
  dispatching := by
    intro call running old new auditId tasks known
    cases known
  inTurn := by
    intro key
    refine ⟨[], List.nodup_nil, ?_, ?_, rfl⟩
    · intro turn member
      cases member
    · intro call running known
      cases known
  follows := fun key live _ => .inl (synced key live)

def unset : Start :=
  wired (fun _ => .null) (fun _ => none) (fun _ => false)

end Settings
end BreadMind
