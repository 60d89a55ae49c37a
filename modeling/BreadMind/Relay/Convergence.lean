import BreadMind.Relay.Announcements

namespace BreadMind
namespace Relay

open Execution Messenger
open Function (update update_of_ne update_self)

variable {Body : Type}

/-!
# Convergence of the ACL caches

Once the announcements of a user's changes are handled, the cache of each of
his connections shows what he sees.  Three things are set apart, and a record
beside the system keeps track of them for each connection and channel:

* an announcement made after the fetch of the visible channels which finds
  the connection not registered yet, or displaced by another one with its
  identifier;
* a refetch without an answer, after which the cache stays as it is;
* a membership change whose announcement is not what the user sees after it,
  as when a member leaves a public channel.  The operation is applied to the
  cache without asking the core.

A later announcement about the channel makes up for each of them.
-/

/-! ## The record beside the system -/

structure Notes where
  /-- The number of announcements on the bus that were made before the
  connection's fetch. -/
  older : ConnRef -> Nat := fun _ => 0
  missed : ConnRef -> ChannelId -> Bool := fun _ _ => false
  /-- The last change about the channel of the user was announced as something
  else than what he sees.  By workspace and user. -/
  unsettled : UUID -> UUID -> ChannelId -> Bool := fun _ _ _ => false

def State.awaits (relay : State Body) (conn : Conn) : Bool :=
  match relay.invalidating with
  | some { event := .kindA _, pending, fetched := none } => decide (conn ∈ pending)
  | _ => false

/-- Whether the connection has missed the last event about the channel, when
the given one is delivered. -/
def Notes.missedAt (notes : Notes) (relay : State Body) (event : AclEvent) (ref : ConnRef)
    (channel : ChannelId) : Bool :=
  match relay.readings ref with
  | some (.accepting userId _) =>
    notes.missed ref channel || (event.concerns userId channel && notes.older ref == 0)
  | some reading =>
    match reading.conn with
    | some conn =>
      if event.concerns conn.userId channel then
        decide (conn ∉ relay.registry.connsByUser event.userId)
      else notes.missed ref channel
    | none => notes.missed ref channel
  | none => notes.missed ref channel

variable {event : AclEvent} {conn : Conn} {channel : ChannelId}

theorem Notes.missedAt_owned {notes : Notes} {relay : State Body} (owned : Owned relay conn) :
    notes.missedAt relay event conn.ref channel = if event.concerns conn.userId channel then
        decide (conn ∉ relay.registry.connsByUser event.userId)
      else notes.missed conn.ref channel := by
  rcases owned with ⟨reading, current, works⟩
  unfold Notes.missedAt
  rw [current]
  cases reading with
  | accepting userId workspaceId => cases works
  | _ =>
    dsimp only
    rw [works]

theorem Notes.missedAt_accepting {notes : Notes} {relay : State Body} {ref : ConnRef}
    {userId : UserId} {workspaceId : WorkspaceId}
    (reading : relay.readings ref = some (.accepting userId workspaceId)) :
    notes.missedAt relay event ref channel =
      (notes.missed ref channel || (event.concerns userId channel && notes.older ref == 0)) := by
  unfold Notes.missedAt
  rw [reading]

variable (system : Deployment Body)

def takeNote (action : Action Body) (notes : Notes) : Notes :=
  match action with
  | .change change =>
    match change.apply system.core with
    | some after =>
      { notes with
        unsettled := fun workspaceId userId channel =>
          if change.announcement.concerns userId.text channel then
            change.announcement.misstates
              (decide (channel ∈ visibleChannels after workspaceId userId))
          else notes.unsettled workspaceId userId channel }
    | none => notes
  | .deliver =>
    match system.relay.invalidating, system.bus with
    | none, event :: _ =>
      { notes with
        older := fun ref => notes.older ref - 1
        missed := notes.missedAt system.relay event }
    | _, _ => notes
  | .connect ref _ _ _ =>
    match system.relay.readings ref with
    | none => { notes with older := update notes.older ref system.bus.length }
    | some _ => notes
  | .refetch conn userId workspaceId answered =>
    if system.Asks conn userId workspaceId ∧ system.relay.awaits conn ∧ answered = false then
      { notes with missed := update notes.missed conn.ref fun _ => true }
    else notes
  | .relay _ => notes

/-- A delivery takes the first announcement, unless one is being handled. -/
theorem deliver_eq (notes : Notes) :
    (system.step .deliver = system ∧ takeNote system .deliver notes = notes) ∨
      ∃ event bus, system.relay.invalidating = none ∧ system.bus = event :: bus ∧
        system.step .deliver = { system with bus }.runRelay (.invalidate event) ∧
        takeNote system .deliver notes = { notes with
          older := fun ref => notes.older ref - 1
          missed := notes.missedAt system.relay event } := by
  unfold Deployment.step takeNote
  dsimp only
  cases system.relay.invalidating with
  | some task => exact .inl ⟨rfl, rfl⟩
  | none =>
    cases system.bus with
    | nil => exact .inl ⟨rfl, rfl⟩
    | cons event bus => exact .inr ⟨event, bus, rfl, rfl, rfl, rfl⟩

def notedDeployment (Body : Type) (core : Database) :
    Machine (Deployment Body × Notes) (Action Body) :=
  (deployment Body core).recording {} takeNote

/-- No announcement about the user is on its way or being handled. -/
def Handled (userId : UserId) : Prop :=
  (∀ event ∈ system.bus, event.userId ≠ userId) ∧
    ∀ task, system.relay.invalidating = some task -> task.event.userId ≠ userId

/-- The caches of a user whose announcements are handled show what he sees. -/
def Converged (current : Deployment Body × Notes) : Prop :=
  ∀ (conn : Conn) (userId workspaceId : UUID) (channel : ChannelId),
    Owned current.1.relay conn -> conn.userId = userId.text -> conn.workspaceId = workspaceId.text ->
      Handled current.1 userId.text -> current.2.missed conn.ref channel = false ->
        current.2.unsettled workspaceId userId channel = false ->
          (channel ∈ current.1.relay.caches conn.ref <->
            channel ∈ visibleChannels current.1.core workspaceId userId)

/-! ## What a cache will say -/

def Invalidation.expected (task : Invalidation) (conn : Conn) (cache : Cache) (channel : ChannelId) :
    Option Bool :=
  if conn ∈ task.pending then
    match task.event with
    | .kindB _ target op => if target = channel then some (op == .add) else some (decide (channel ∈ cache))
    | .kindA _ =>
      match task.fetched with
      | some (target, ids) => if target = conn then some (decide (channel ∈ ids)) else none
      | none => none
  else some (decide (channel ∈ cache))

variable {cache : Cache}

theorem Invalidation.expected_rest {task : Invalidation} {other : Conn} (different : other ≠ conn)
    (answers : ∀ person, task.event = .kindA person ->
      ∀ target ids, task.fetched = some (target, ids) -> target ≠ other) :
    { task with pending := task.pending.erase conn, fetched := none : Invalidation }.expected other
      cache channel = task.expected other cache channel := by
  unfold Invalidation.expected
  dsimp only
  simp only [Finset.mem_erase, different, ne_eq, not_false_eq_true, true_and]
  split
  · split
    · rfl
    · rename_i person kind
      split
      · rename_i target ids answered
        exact (if_neg (answers person kind target ids answered)).symm
      · rfl
  · rfl

theorem Invalidation.expected_apart {pending : Finset Conn}
    (apart : event.concerns conn.userId channel = false)
    (own : conn ∈ pending -> conn.userId = event.userId) :
    { event, pending : Invalidation }.expected conn cache channel = some (decide (channel ∈ cache)) := by
  unfold Invalidation.expected
  dsimp only
  split
  · rename_i member
    cases event with
    | kindA person =>
      rw [own member] at apart
      rw [show (AclEvent.kindA person).userId = person from rfl, AclEvent.concerns_kindA] at apart
      cases apart
    | kindB person target op =>
      dsimp only
      refine if_neg fun about => ?_
      rw [own member, ← about] at apart
      rw [show (AclEvent.kindB person target op).userId = person from rfl,
        AclEvent.concerns_kindB] at apart
      cases apart
  · rfl

theorem Invalidation.expected_about {pending : Finset Conn} {value : Option Bool}
    (said : event.verdict conn.userId channel = some value) (reached : conn ∈ pending) :
    { event, pending : Invalidation }.expected conn cache channel = value := by
  unfold Invalidation.expected
  rw [if_pos reached]
  rcases AclEvent.verdict_eq_some said with ⟨kind, none_⟩ | ⟨op, kind, value_⟩
  · rw [kind, none_]
  · rw [kind, value_]
    exact if_pos rfl

namespace State

def expected (relay : State Body) (conn : Conn) (channel : ChannelId) : Option Bool :=
  match relay.invalidating with
  | some task => task.expected conn (relay.caches conn.ref) channel
  | none => some (decide (channel ∈ relay.caches conn.ref))

variable {relay after : State Body} {conn other : Conn} {channel : ChannelId}

theorem expected_of_free (free : relay.invalidating = none) :
    relay.expected conn channel = some (decide (channel ∈ relay.caches conn.ref)) := by
  unfold expected
  rw [free]

variable {task : Invalidation}

theorem expected_of_running (running : relay.invalidating = some task) :
    relay.expected conn channel = task.expected conn (relay.caches conn.ref) channel := by
  unfold expected
  rw [running]

theorem expected_of_not_pending
    (left : ∀ task, relay.invalidating = some task -> conn ∉ task.pending) :
    relay.expected conn channel = some (decide (channel ∈ relay.caches conn.ref)) := by
  unfold expected
  split
  · rename_i task running
    exact if_neg (left task running)
  · rfl

theorem expected_congr (invalidating : after.invalidating = relay.invalidating)
    (caches : after.caches conn.ref = relay.caches conn.ref) :
    after.expected conn channel = relay.expected conn channel := by
  unfold expected
  rw [invalidating, caches]

theorem expected_step (input : Input Body) (owned : Owned relay conn)
    (quiet : input.invalidates = false) :
    (relay.step input).1.expected conn channel = relay.expected conn channel := by
  rcases owned with ⟨reading, current, _⟩
  refine expected_congr (invalidating_step quiet) ?_
  rcases caches_step input current with same | ⟨visited, named, _⟩
  · exact same
  · rw [named] at quiet
    cases quiet

theorem step_refetch (relay : State Body) (conn : Conn) (visible : Option (List ChannelId)) :
    (relay.awaits conn = false ∧ (relay.step (.refetch conn visible)).1 = relay) ∨
      (relay.awaits conn = true ∧ ∃ task, relay.invalidating = some task ∧
        conn ∈ task.pending ∧ task.fetched = none ∧
        (relay.step (.refetch conn visible)).1 = relay.refetched task conn visible) := by
  unfold step awaits
  dsimp only
  cases relay.invalidating with
  | none => exact .inl ⟨rfl, rfl⟩
  | some task =>
    rcases task with ⟨event, pending, fetched⟩
    cases event with
    | kindB person channel op => exact .inl ⟨rfl, rfl⟩
    | kindA person =>
      cases fetched with
      | some answer => exact .inl ⟨rfl, rfl⟩
      | none =>
        dsimp only
        split
        · rename_i member
          exact .inr ⟨decide_eq_true member, _, rfl, member, rfl, rfl⟩
        · rename_i absent
          exact .inl ⟨decide_eq_false absent, rfl⟩

theorem step_invalidate {event : AclEvent} (free : relay.invalidating = none) :
    (relay.step (.invalidate event)).1 = { relay with
      invalidating :=
        if relay.registry.connsByUser event.userId = ∅ then none
        else some { event, pending := relay.registry.connsByUser event.userId } } := by
  unfold step
  dsimp only
  rw [free]
  dsimp only
  split
  · rw [← free]
  · rfl

theorem expected_invalidate {event : AclEvent} (free : relay.invalidating = none) :
    (relay.step (.invalidate event)).1.expected conn channel =
      { event, pending := relay.registry.connsByUser event.userId : Invalidation }.expected conn
        (relay.caches conn.ref) channel := by
  rw [step_invalidate free]
  unfold expected
  dsimp only
  split
  · rename_i task running
    split at running
    · cases running
    · cases running
      rfl
  · rename_i ended
    split at ended
    · rename_i nobody
      unfold Invalidation.expected
      dsimp only
      rw [nobody, if_neg (Finset.notMem_empty conn)]
    · cases ended

theorem expected_visited (task : Invalidation) : (relay.visited task conn).expected other channel =
      { task with pending := task.pending.erase conn, fetched := none : Invalidation }.expected other
        (relay.caches other.ref) channel := by
  unfold expected visited
  dsimp only
  split
  · rename_i rest running
    split at running
    · cases running
    · cases running
      rfl
  · rename_i ended
    split at ended
    · rename_i last
      unfold Invalidation.expected
      dsimp only
      rw [last, if_neg (Finset.notMem_empty other)]
    · cases ended

theorem visit_eq (pending : conn ∈ task.pending) :
    (relay.visit task conn).1 = relay ∨ ∃ cache : Cache,
      (relay.visit task conn).1 = (relay.setCache conn.ref cache).visited task conn ∧
        (∀ channel, task.expected conn (relay.caches conn.ref) channel =
          some (decide (channel ∈ cache))) ∧ ∀ person, task.event = .kindA person ->
          ∀ target ids, task.fetched = some (target, ids) -> target = conn := by
  unfold visit Invalidation.expected
  simp only [if_pos pending]
  cases task.event with
  | kindB person target op =>
    cases op with
    | add =>
      refine .inr ⟨_, rfl, ?_, nofun⟩
      intro channel
      by_cases about : target = channel
      · exact (if_pos about).trans
          (congrArg some (decide_eq_true (Cache.mem_add.mpr (.inl about.symm))).symm)
      · refine (if_neg about).trans (congrArg some (decide_eq_decide.mpr ?_))
        exact (Cache.mem_add.trans (or_iff_right fun equal => about equal.symm)).symm
    | remove =>
      refine .inr ⟨_, rfl, ?_, nofun⟩
      intro channel
      by_cases about : target = channel
      · refine (if_pos about).trans (congrArg some (decide_eq_false ?_).symm)
        exact fun kept => (Cache.mem_remove.mp kept).1 about.symm
      · refine (if_neg about).trans (congrArg some (decide_eq_decide.mpr ?_))
        exact (Cache.mem_remove.trans (and_iff_right fun equal => about equal.symm)).symm
  | kindA person =>
    cases task.fetched with
    | none => exact .inl rfl
    | some answer =>
      rcases answer with ⟨target, ids⟩
      dsimp only
      by_cases own : target = conn
      · rw [if_pos own]
        refine .inr ⟨_, rfl, ?_, fun _ _ _ _ same => ?_⟩
        · intro channel
          exact (if_pos own).trans (congrArg some (decide_eq_decide.mpr List.mem_toFinset.symm))
        · cases same
          exact own
      · rw [if_neg own]
        exact .inl rfl

theorem step_visit (relay : State Body) (conn : Conn) :
    (relay.step (.visit conn)).1 = relay ∨ ∃ task, relay.invalidating = some task ∧
      conn ∈ task.pending ∧ (relay.step (.visit conn)).1 = (relay.visit task conn).1 := by
  unfold step
  dsimp only
  cases relay.invalidating with
  | none => exact .inl rfl
  | some task =>
    dsimp only
    split
    · rename_i member
      exact .inr ⟨task, rfl, member, rfl⟩
    · exact .inl rfl

theorem visit_goesOn {rest : Invalidation} (running : relay.invalidating = some task)
    (pending : conn ∈ task.pending) (started : (relay.visit task conn).1.invalidating = some rest) :
    rest.event = task.event ∧ rest.pending ⊆ task.pending := by
  rcases relay.visit_eq pending with same | ⟨cache, after, _, _⟩
  · rw [same, running] at started
    cases started
    exact ⟨rfl, Finset.Subset.refl _⟩
  · rw [after] at started
    unfold visited at started
    dsimp only at started
    split at started
    · cases started
    · cases started
      exact ⟨rfl, Finset.erase_subset _ _⟩

theorem expected_visit (running : relay.invalidating = some task)
    (pending : conn ∈ task.pending) (apart : other.ref = conn.ref -> other = conn) :
    (relay.visit task conn).1.expected other channel = relay.expected other channel := by
  rcases relay.visit_eq pending with same | ⟨cache, after, expected, answers⟩
  · rw [same]
  · rw [after, expected_visited, expected_of_running running]
    by_cases own : other = conn
    · subst own
      rw [expected, setCache_same]
      exact if_neg (Finset.notMem_erase other _)
    · rw [setCache_other _ _ fun same => own (apart same)]
      refine Invalidation.expected_rest own ?_
      intro person kind target ids answered same
      exact own (same.symm.trans (answers person kind target ids answered))

end State

structure Converging (current : Deployment Body × Notes) : Prop where
  identified : Identified current.1.relay
  pending : ∀ task conn, current.1.relay.invalidating = some task -> conn ∈ task.pending ->
    conn.userId = task.event.userId ∧ Known current.1.relay conn
  older : ∀ ref, current.2.older ref ≤ current.1.bus.length
  announced : ∀ workspaceId userId channel,
    current.2.unsettled workspaceId userId channel = false ->
      Agrees (foresee userId.text channel none current.1.bus)
        (channel ∈ visibleChannels current.1.core workspaceId userId)
  tracked : ∀ (conn : Conn) (userId workspaceId : UUID) channel,
    Owned current.1.relay conn -> conn.userId = userId.text -> conn.workspaceId = workspaceId.text ->
      current.2.missed conn.ref channel = false ->
        current.2.unsettled workspaceId userId channel = false ->
          Agrees (foresee userId.text channel (current.1.relay.expected conn channel) current.1.bus)
            (channel ∈ visibleChannels current.1.core workspaceId userId)
  /-- Before the registration only the announcements made after the fetch count. -/
  accepted : ∀ ref (userId workspaceId : UUID) channel,
    current.1.relay.readings ref = some (.accepting userId.text workspaceId.text) ->
      current.2.missed ref channel = false ->
        current.2.unsettled workspaceId userId channel = false ->
          Agrees (foresee userId.text channel (some (decide (channel ∈ current.1.relay.caches ref)))
              (current.1.bus.drop (current.2.older ref)))
            (channel ∈ visibleChannels current.1.core workspaceId userId)

namespace Converging

variable {system : Deployment Body} {notes : Notes}

theorem initially (core : Database) : Converging (notedDeployment Body core).initial where
  identified := Identified.initially
  pending := fun _ _ impossible => by cases impossible
  older := fun _ => Nat.le_refl 0
  announced := fun _ _ _ _ => agrees_none
  tracked := by
    rintro conn userId workspaceId channel ⟨reading, impossible, _⟩
    cases impossible
  accepted := fun _ _ _ _ impossible => by cases impossible

variable {workspaceId userId : UUID}

theorem announce {change : Change} {core after : Database} (applied : change.apply core = some after)
    {channel : ChannelId} {entry : Option Bool} {bus : List AclEvent} {unsettled : Bool}
    (held : unsettled = false ->
      Agrees (foresee userId.text channel entry bus) (channel ∈ visibleChannels core workspaceId userId))
    (settled : (if change.announcement.concerns userId.text channel then
        change.announcement.misstates (decide (channel ∈ visibleChannels after workspaceId userId))
      else unsettled) = false) :
    Agrees (foresee userId.text channel entry (bus ++ [change.announcement]))
      (channel ∈ visibleChannels after workspaceId userId) := by
  rw [foresee_append, foresee_singleton]
  split at settled
  · rename_i about
    rcases Option.isSome_iff_exists.mp about with ⟨value, said⟩
    rw [said]
    rcases AclEvent.verdict_eq_some said with ⟨_, none_⟩ | ⟨op, kind, value_⟩
    · rw [none_]
      exact agrees_none
    · rw [kind] at settled
      have same : (op == .add) = decide (channel ∈ visibleChannels after workspaceId userId) := by
        simpa only [AclEvent.misstates, bne_eq_false_iff_eq] using settled
      rw [value_, same]
      exact agrees_decide
  · rename_i apart
    rw [Bool.not_eq_true] at apart
    rw [AclEvent.concerns_eq_false.mp apart, Change.mem_visibleChannels_iff applied apart]
    exact held settled

theorem changes (holds : Converging (system, notes)) (change : Change) :
    Converging (system.step (.change change), takeNote system (.change change) notes) := by
  unfold Deployment.step takeNote
  dsimp only
  cases applied : change.apply system.core with
  | none => exact holds
  | some after =>
    refine ⟨holds.identified, holds.pending, ?_, ?_, ?_, ?_⟩
    · intro ref
      have bound := holds.older ref
      exact bound.trans (by rw [List.length_append]; exact Nat.le_add_right _ _)
    · intro workspaceId userId channel settled
      exact announce applied (holds.announced workspaceId userId channel) settled
    · intro conn userId workspaceId channel owned own home reached settled
      exact announce applied
        (holds.tracked conn userId workspaceId channel owned own home reached) settled
    · intro ref userId workspaceId channel reading reached settled
      rw [List.drop_append_of_le_length (holds.older ref)]
      exact announce applied (holds.accepted ref userId workspaceId channel reading reached) settled

theorem delivers (holds : Converging (system, notes)) :
    Converging (system.step .deliver, takeNote system .deliver notes) := by
  rcases deliver_eq system notes with idle | ⟨event, bus, free, waiting, system_, notes_⟩
  · rw [idle.1, idle.2]
    exact holds
  · rw [system_, notes_]
    have announced : ∀ workspaceId userId channel,
        notes.unsettled workspaceId userId channel = false ->
          Agrees (foresee userId.text channel ((event.verdict userId.text channel).getD none) bus)
            (channel ∈ visibleChannels system.core workspaceId userId) := by
      intro workspaceId userId channel settled
      rw [← foresee_cons, ← waiting]
      exact holds.announced workspaceId userId channel settled
    have bound : ∀ ref, notes.older ref ≤ bus.length + 1 := by
      intro ref
      have whole := holds.older ref
      rw [waiting] at whole
      exact whole
    refine ⟨holds.identified.step trivial, ?_, ?_, ?_, ?_, ?_⟩
    · intro task conn running member
      change (system.relay.step (.invalidate event)).1.invalidating = some task at running
      rw [State.step_invalidate free] at running
      dsimp only at running
      split at running
      · cases running
      · cases running
        have ⟨own, owned⟩ := holds.identified.of_mem_connsByUser member
        exact ⟨own, owned.known.step _⟩
    · intro ref
      exact Nat.sub_le_of_le_add (bound ref)
    · intro workspaceId userId channel settled
      exact (announced workspaceId userId channel settled).forget
    · intro conn userId workspaceId channel owned own home reached settled
      have old : Owned system.relay conn := by
        rcases owned.before with old | ⟨_, _, _, impossible, _⟩
        · exact old
        · cases impossible
      change Agrees (foresee userId.text channel
        ((system.relay.step (.invalidate event)).1.expected conn channel) bus) _
      rw [State.expected_invalidate free]
      replace reached : notes.missedAt system.relay event conn.ref channel = false := reached
      rw [Notes.missedAt_owned old] at reached
      split at reached
      · rename_i about
        rcases Option.isSome_iff_exists.mp about with ⟨value, said⟩
        have member := not_not.mp (of_decide_eq_false reached)
        rw [Invalidation.expected_about said member]
        have agreed := announced workspaceId userId channel settled
        rw [← own, said] at agreed
        exact own ▸ agreed
      · rename_i apart
        rw [Bool.not_eq_true] at apart
        rw [Invalidation.expected_apart apart
          fun member => (holds.identified.of_mem_connsByUser member).1]
        have agreed := holds.tracked conn userId workspaceId channel old own home reached settled
        rw [waiting, foresee_cons, ← own, AclEvent.concerns_eq_false.mp apart,
          State.expected_of_free free] at agreed
        exact own ▸ agreed
    · intro ref userId workspaceId channel reading reached settled
      rcases accepting_before reading with old | ⟨_, impossible, _⟩
      · replace reached : notes.missedAt system.relay event ref channel = false := reached
        rw [Notes.missedAt_accepting old, Bool.or_eq_false_iff, Bool.and_eq_false_iff] at reached
        have agreed := holds.accepted ref userId workspaceId channel old reached.1 settled
        rw [waiting] at agreed
        change Agrees (foresee userId.text channel
          (some (decide (channel ∈ (system.relay.step (.invalidate event)).1.caches ref)))
          (bus.drop (notes.older ref - 1))) _
        rw [State.step_invalidate free]
        cases count : notes.older ref with
        | zero =>
          rw [count] at agreed reached
          rcases reached.2 with apart | impossible
          · rw [List.drop_zero, foresee_cons, AclEvent.concerns_eq_false.mp apart] at agreed
            exact agreed
          · cases impossible
        | succ older =>
          rw [count] at agreed
          exact agreed
      · cases impossible

theorem connects (holds : Converging (system, notes)) (ref : ConnRef) (userId workspaceId : UUID)
    (answered : Bool) : Converging (system.step (.connect ref userId workspaceId answered),
      takeNote system (.connect ref userId workspaceId answered) notes) := by
  have kept : (takeNote system (.connect ref userId workspaceId answered) notes).missed = notes.missed ∧
      (takeNote system (.connect ref userId workspaceId answered) notes).unsettled = notes.unsettled := by
    unfold takeNote
    dsimp only
    split <;> exact ⟨rfl, rfl⟩
  refine ⟨holds.identified.step ⟨userId, rfl⟩, ?_, ?_, ?_, ?_, ?_⟩
  · intro task conn running member
    change (system.relay.step _).1.invalidating = some task at running
    rw [invalidating_step rfl] at running
    have ⟨own, known⟩ := holds.pending task conn running member
    exact ⟨own, known.step _⟩
  · intro other
    have bound := holds.older other
    unfold takeNote
    dsimp only
    split
    · change update notes.older ref system.bus.length other ≤ system.bus.length
      by_cases here : other = ref
      · rw [here, update_self]
      · rw [update_of_ne here]
        exact bound
    · exact bound
  · intro home person channel settled
    rw [kept.2] at settled
    exact holds.announced home person channel settled
  · intro conn person home channel owned own place reached settled
    rw [kept.1] at reached
    rw [kept.2] at settled
    rcases owned.before with old | ⟨_, _, _, impossible, _⟩
    · have agreed := holds.tracked conn person home channel old own place reached settled
      rw [← State.expected_step (.fetchVisible ref userId.text workspaceId.text
        (system.answer userId workspaceId answered)) old rfl] at agreed
      exact agreed
    · cases impossible
  · intro other person home channel reading reached settled
    rw [kept.1] at reached
    rw [kept.2] at settled
    rcases accepting_before reading with old | ⟨ids, named, free, cache⟩
    · have agreed := holds.accepted other person home channel old reached settled
      have older : (takeNote system (.connect ref userId workspaceId answered) notes).older other =
          notes.older other := by
        unfold takeNote
        dsimp only
        split
        · rename_i free
          refine update_of_ne ?_ _ _
          intro same
          rw [same, free] at old
          cases old
        · rfl
      rw [older]
      rcases caches_step (.fetchVisible ref userId.text workspaceId.text
        (system.answer userId workspaceId answered)) old with same | ⟨_, impossible, _⟩
      · rw [← same] at agreed
        exact agreed
      · cases impossible
    · have parts := Input.fetchVisible.inj named
      rcases parts with ⟨rfl, sameUser, sameHome, given⟩
      cases UUID.text_injective sameUser
      cases UUID.text_injective sameHome
      have asked : visibleChannels system.core workspaceId userId = ids := by
        unfold Deployment.answer at given
        split at given
        · exact Option.some_inj.mp given
        · cases given
      have older : (takeNote system (.connect ref userId workspaceId answered) notes).older ref =
          system.bus.length := by
        unfold takeNote
        dsimp only
        rw [free]
        exact update_self _ _ _
      change Agrees (foresee userId.text channel
        (some (decide (channel ∈ (system.relay.step _).1.caches ref)))
        (system.bus.drop _)) (channel ∈ visibleChannels system.core workspaceId userId)
      rw [older, List.drop_length, cache, asked]
      have entry : decide (channel ∈ ids.toFinset) = decide (channel ∈ ids) :=
        decide_eq_decide.mpr List.mem_toFinset
      rw [entry]
      exact agrees_decide

variable {conn : Conn}

theorem answers (holds : Converging (system, notes))
    {task : Invalidation} (asks : system.Asks conn userId workspaceId)
    (running : system.relay.invalidating = some task) (unanswered : task.fetched = none) :
    Converging ({ system with
      relay := system.relay.refetched task conn
        (some (visibleChannels system.core workspaceId userId)) }, notes) := by
  have expected : ∀ {other : Conn} {channel : ChannelId}, other ≠ conn ->
      (system.relay.refetched task conn
        (some (visibleChannels system.core workspaceId userId))).expected other channel =
      system.relay.expected other channel := by
    intro other channel different
    rw [State.expected_of_running running]
    unfold State.expected State.refetched Invalidation.expected
    dsimp only
    rw [unanswered]
    simp only [if_neg fun same : conn = other => different same.symm]
  have asked : task.event.userId = userId.text := by
    have both := asks.1
    rw [running] at both
    exact Option.some_inj.mp both
  refine ⟨holds.identified.congr rfl rfl, ?_, holds.older, holds.announced, ?_, holds.accepted⟩
  · intro current other started waits
    cases started
    exact holds.pending task other running waits
  · intro other person home channel owned own place reached settled
    have agreed := holds.tracked other person home channel owned own place reached settled
    by_cases here : other = conn
    · subst here
      change Agrees (foresee person.text channel (Invalidation.expected { task with
          fetched := some (other, visibleChannels system.core workspaceId userId) } other
            (system.relay.caches other.ref) channel) system.bus) _
      by_cases member : other ∈ task.pending
      · have entry := (holds.pending task other running member).1
        cases UUID.text_injective (own.symm.trans (entry.trans asked))
        cases UUID.text_injective (place.symm.trans asks.2)
        have announced := holds.announced workspaceId userId channel settled
        unfold Invalidation.expected
        rw [if_pos member]
        dsimp only
        rw [if_pos rfl]
        split
        · rename_i kind
          rw [State.expected_of_running running] at agreed
          unfold Invalidation.expected at agreed
          rw [if_pos member, kind] at agreed
          exact agreed
        · exact agrees_decide.foresee announced
      · unfold Invalidation.expected
        rw [if_neg member]
        rw [State.expected_of_running running] at agreed
        unfold Invalidation.expected at agreed
        rw [if_neg member] at agreed
        exact agreed
    · rw [← expected here] at agreed
      exact agreed

theorem skips (holds : Converging (system, notes)) {task : Invalidation}
    (running : system.relay.invalidating = some task) (unanswered : task.fetched = none) :
    Converging ({ system with relay := system.relay.visited task conn },
      { notes with missed := update notes.missed conn.ref fun _ => true }) := by
  have reached : ∀ {ref : ConnRef} {channel : ChannelId},
      update notes.missed conn.ref (fun _ => true) ref channel = false ->
        ref ≠ conn.ref ∧ notes.missed ref channel = false := by
    intro ref channel missed
    by_cases here : ref = conn.ref
    · rw [here, update_self] at missed
      cases missed
    · rw [update_of_ne here] at missed
      exact ⟨here, missed⟩
  refine ⟨holds.identified.congr rfl rfl, ?_, holds.older, holds.announced, ?_, ?_⟩
  · intro rest other started waits
    change (if task.pending.erase conn = ∅ then none
      else some { task with pending := task.pending.erase conn, fetched := none }) = some rest at started
    split at started
    · cases started
    · cases started
      exact holds.pending task other running (Finset.mem_of_mem_erase waits)
  · intro other person home channel owned own place missed settled
    have ⟨elsewhere, before⟩ := reached missed
    have agreed := holds.tracked other person home channel owned own place before settled
    change Agrees (foresee person.text channel
      ((system.relay.visited task conn).expected other channel) system.bus) _
    rw [State.expected_visited, Invalidation.expected_rest (fun same => elsewhere (congrArg Conn.ref same))
      (fun _ _ _ _ answer => by rw [unanswered] at answer; cases answer),
      ← State.expected_of_running running]
    exact agreed
  · intro ref person home channel reading missed settled
    exact holds.accepted ref person home channel reading (reached missed).2 settled

theorem refetches (holds : Converging (system, notes)) (conn : Conn) (userId workspaceId : UUID)
    (answered : Bool) : Converging (system.step (.refetch conn userId workspaceId answered),
      takeNote system (.refetch conn userId workspaceId answered) notes) := by
  unfold Deployment.step takeNote
  dsimp only
  by_cases asks : system.Asks conn userId workspaceId
  · rw [if_pos asks]
    rcases system.relay.step_refetch conn (system.answer userId workspaceId answered) with
      ⟨idle, same⟩ | ⟨awaits, task, running, member, unanswered, after⟩
    · rw [if_neg fun all => Bool.false_ne_true (idle.symm.trans all.2.1)]
      unfold Deployment.runRelay
      rw [same]
      exact holds
    · unfold Deployment.runRelay
      rw [after]
      cases answered with
      | true =>
        rw [if_neg fun all => Bool.false_ne_true all.2.2.symm]
        exact holds.answers asks running unanswered
      | false =>
        rw [if_pos ⟨asks, awaits, rfl⟩]
        exact holds.skips running unanswered
  · rw [if_neg asks, if_neg fun all => asks all.1]
    exact holds

theorem tracked_of_accepted (holds : Converging (system, notes)) {channel : ChannelId}
    (reading : system.relay.readings conn.ref = some (.accepting userId.text workspaceId.text))
    (reached : notes.missed conn.ref channel = false)
    (settled : notes.unsettled workspaceId userId channel = false) :
    Agrees (foresee userId.text channel (system.relay.expected conn channel) system.bus)
      (channel ∈ visibleChannels system.core workspaceId userId) := by
  rw [State.expected_of_not_pending]
  · exact (holds.accepted conn.ref userId workspaceId channel reading reached settled).of_drop
      (holds.announced workspaceId userId channel settled)
  · intro task running member
    rcases (holds.pending task conn running member).2 with ⟨current, currentAt, works | ended⟩
    · rw [reading] at currentAt
      cases currentAt
      cases works
    · rw [reading, ended] at currentAt
      cases currentAt

theorem moves (holds : Converging (system, notes)) {input : Input Body} (fromCore : FromCore input)
    (quiet : input.invalidates = false) (alone : input.isLocal = true) :
    Converging (system.runRelay input, notes) := by
  refine ⟨holds.identified.step fromCore, ?_, holds.older, holds.announced, ?_, ?_⟩
  · intro task conn running member
    change (system.relay.step input).1.invalidating = some task at running
    rw [invalidating_step quiet] at running
    have ⟨own, known⟩ := holds.pending task conn running member
    exact ⟨own, known.step input⟩
  · intro conn userId workspaceId channel owned own home reached settled
    change Agrees (foresee userId.text channel
      ((system.relay.step input).1.expected conn channel) system.bus) _
    rcases owned.before with old | ⟨person, place, startedAt, _, reading, made⟩
    · rw [State.expected_step input old quiet]
      exact holds.tracked conn userId workspaceId channel old own home reached settled
    · have person_ : person = userId.text := (congrArg Conn.userId made).symm.trans own
      have place_ : place = workspaceId.text := (congrArg Conn.workspaceId made).symm.trans home
      rw [person_, place_] at reading
      have cache : (system.relay.step input).1.caches conn.ref = system.relay.caches conn.ref := by
        rcases caches_step input reading with same | ⟨_, named, _⟩
        · exact same
        · rw [named] at quiet
          cases quiet
      rw [State.expected_congr (invalidating_step quiet) cache]
      exact holds.tracked_of_accepted reading reached settled
  · intro ref userId workspaceId channel reading reached settled
    rcases accepting_before reading with old | ⟨_, named, _⟩
    · have agreed := holds.accepted ref userId workspaceId channel old reached settled
      rcases caches_step input old with same | ⟨_, named, _⟩
      · rw [← same] at agreed
        exact agreed
      · rw [named] at quiet
        cases quiet
    · rw [named] at alone
      cases alone

theorem visits (holds : Converging (system, notes)) (conn : Conn) :
    Converging (system.runRelay (.visit conn), notes) := by
  unfold Deployment.runRelay
  rcases system.relay.step_visit conn with same | ⟨task, running, member, after⟩
  · rw [same]
    exact holds
  · have known := (holds.pending task conn running member).2
    refine ⟨holds.identified.step trivial, ?_, holds.older, holds.announced, ?_, ?_⟩
    · intro rest other started waits
      change (system.relay.step (.visit conn)).1.invalidating = some rest at started
      rw [after] at started
      have ⟨event, left⟩ := State.visit_goesOn running member started
      have ⟨own, before⟩ := holds.pending task other running (left waits)
      exact ⟨event ▸ own, before.step _⟩
    · intro other userId workspaceId channel owned own home reached settled
      have old : Owned system.relay other := by
        rcases owned.before with old | ⟨_, _, _, impossible, _⟩
        · exact old
        · cases impossible
      change Agrees (foresee userId.text channel
        ((system.relay.step (.visit conn)).1.expected other channel) system.bus) _
      rw [after, State.expected_visit running member (known.unique old)]
      exact holds.tracked other userId workspaceId channel old own home reached settled
    · intro ref userId workspaceId channel reading reached settled
      rcases accepting_before reading with old | ⟨_, impossible, _⟩
      · have agreed := holds.accepted ref userId workspaceId channel old reached settled
        rcases caches_step (.visit conn) old with same | ⟨_, named, here⟩
        · rw [← same] at agreed
          exact agreed
        · cases named
          rcases known with ⟨current, currentAt, works | ended⟩
          · rw [here, old] at currentAt
            cases currentAt
            cases works
          · rw [here, old, ended] at currentAt
            cases currentAt
      · cases impossible

theorem step (holds : Converging (system, notes)) (action : Action Body) :
    Converging (system.step action, takeNote system action notes) := by
  cases action with
  | change change => exact holds.changes change
  | deliver => exact holds.delivers
  | connect ref userId workspaceId answered => exact holds.connects ref userId workspaceId answered
  | refetch conn userId workspaceId answered => exact holds.refetches conn userId workspaceId answered
  | relay input =>
    unfold Deployment.step takeNote
    dsimp only
    split
    · rename_i alone
      cases input with
      | fetchVisible ref userId workspaceId visible | invalidate event | refetch conn visible =>
        cases alone
      | visit conn => exact holds.visits conn
      | _ => exact holds.moves trivial rfl rfl
    · exact holds

theorem converged {current : Deployment Body × Notes} (holds : Converging current) :
    Converged current := by
  rcases current with ⟨system, notes⟩
  intro conn userId workspaceId channel owned own home handled reached settled
  have agreed := holds.tracked conn userId workspaceId channel owned own home reached settled
  have silent : foresee userId.text channel (system.relay.expected conn channel) system.bus =
      system.relay.expected conn channel := by
    have unsaid : system.bus.filterMap (AclEvent.verdict userId.text channel) = [] := by
      refine List.filterMap_eq_nil_iff.mpr ?_
      intro event waiting
      rw [← AclEvent.concerns_eq_false, ← Bool.not_eq_true]
      intro about
      exact handled.1 event waiting (AclEvent.userId_of_concerns about)
    unfold foresee
    rw [unsaid]
    rfl
  have left : ∀ task, system.relay.invalidating = some task -> conn ∉ task.pending := by
    intro task running member
    exact handled.2 task running ((holds.pending task conn running member).1.symm.trans own)
  change Agrees (foresee userId.text channel (system.relay.expected conn channel) system.bus) _
    at agreed
  rw [silent, State.expected_of_not_pending left] at agreed
  exact decide_eq_true_iff.symm.trans (agreed _ rfl)

end Converging

/-- In every run, from any content of the tables, the caches converge. -/
theorem caches_converge_run (core : Database) (actions : List (Action Body)) :
    (notedDeployment Body core).EveryState Converged actions := by
  intro before _ _
  exact ((notedDeployment Body core).invariant_after Converging (Converging.initially core)
    (fun current action holds => Converging.step holds action) before).converged

def workspace : UUID := 1

def member : UUID := 2

def lobby : UUID := 3

def lobbyOnly : Database where
  users := [{ id := member, workspaceId := workspace, email := "", kind := .human, role := .member }]
  channels := [{
    id := lobby
    workspaceId := workspace
    kind := .publicChannel
    postingPolicy := .all
    isArchived := false }]
  usersById := by decide
  channelsById := by decide
  membersByPair := members_nil
  messagesById := messages_nil
  messagesBySequence := sequences_nil
  messagesByClientMsgId := clients_nil

def visitor : Conn :=
  connection 0 member.text workspace.text "1"

/-- The member connects, becomes a guest, and his channels are asked for again. -/
def demoted (answered : Bool) : List (Action Unit) :=
  [.connect 0 member workspace true, .relay (.register 0 "1"),
    .change (.updateUserRole workspace member .guest), .deliver,
    .refetch visitor member workspace answered, .relay (.visit visitor)]

/-- With an answer the channel is gone. -/
theorem demoted_converged :
    lobby.text ∉ ((notedDeployment Unit lobbyOnly).after (demoted true)).1.relay.caches 0 := by
  have reading : ((notedDeployment Unit lobbyOnly).after (demoted true)).1.relay.readings 0 =
      some (.idle visitor) := rfl
  have shown := caches_converge_run lobbyOnly (demoted true) (demoted true) [] rfl visitor member
    workspace lobby.text ⟨.idle visitor, reading, rfl⟩ rfl rfl ⟨nofun, nofun⟩ rfl rfl
  exact fun held => absurd (shown.mp held) (by decide +kernel)

def Settled : Prop :=
  system.bus = [] ∧ system.relay.invalidating = none

def CachesExact : Prop :=
  Settled system -> ∀ (conn : Conn) (userId workspaceId : UUID) (channel : ChannelId),
    Owned system.relay conn -> conn.userId = userId.text -> conn.workspaceId = workspaceId.text ->
      (channel ∈ system.relay.caches conn.ref <->
        channel ∈ visibleChannels system.core workspaceId userId)

/-- The member connects and is taken out of the public channel, which he goes on seeing. -/
def removed : List (Action Unit) :=
  [.connect 0 member workspace true, .relay (.register 0 "1"),
    .change (.removeMember lobby member), .deliver, .relay (.visit visitor)]

/-- Without an answer the cache keeps the channel which the guest may not see, and a removal
takes the channel out of the cache which the member still sees. -/
theorem revoked_channel_kept : ¬ (deployment Unit lobbyOnly).EveryState CachesExact (demoted false) ∧
    ¬ (deployment Unit lobbyOnly).EveryState CachesExact removed := by
  constructor
  · intro claimed
    have reading : ((deployment Unit lobbyOnly).after (demoted false)).relay.readings 0 =
        some (.idle visitor) := rfl
    have shown := claimed (demoted false) [] rfl ⟨rfl, rfl⟩ visitor member workspace lobby.text
      ⟨.idle visitor, reading, rfl⟩ rfl rfl
    exact absurd (shown.mp (by decide +kernel)) (by decide +kernel)
  · intro claimed
    have reading : ((deployment Unit lobbyOnly).after removed).relay.readings 0 =
        some (.idle visitor) := rfl
    have shown := claimed removed [] rfl ⟨rfl, rfl⟩ visitor member workspace lobby.text
      ⟨.idle visitor, reading, rfl⟩ rfl rfl
    exact absurd (shown.mpr (by decide +kernel)) (by decide +kernel)

end Relay
end BreadMind
