import BreadMind.Settings.Locking

namespace BreadMind
namespace Settings

open Execution
open Function (update update_apply update_self)

/-!
# Writes of an agent wait for their approval

With an approval queue in place, an agent changes neither an admin-only key
nor the vault before the identifier it was answered with has been resolved.
What is executed then is the captured request, and it is executed once.

Identifiers are drawn at random and not checked for reuse.  A request is
therefore known by the call that submitted it, and nothing below assumes that
two submissions are answered with different identifiers.
-/

/-- The call that stores or uses the vault here, and the request it carries out. -/
def Effect.writer : Effect -> Option (Nat × Request)
  | stored call request _ _ => some (call, request)
  | vaultStored call request _ _ _ => some (call, request)
  | vaultDeleted call request _ => some (call, request)
  | _ => none

/-- Every use of the vault, and every change of an admin-only key, by an agent. -/
def Request.needsApproval (request : Request) : Bool :=
  isAgent request.actor &&
    (!request.operation.onStore || adminOnlyKeys.contains request.operation.key)

/-- The effect is what the request asks for, with its key and its values. -/
def Effect.Executes (config : Config) (request : Request) : Effect -> Prop
  | stored _ _ key value => key = request.key ∧ request.operation.onStore = true ∧
      ∃ stored draws,
        request.operation.applied config draws stored = .ok value
  | vaultStored _ _ vaultId value metadata =>
    match request.operation with
    | .setCredential key secret description _ =>
      vaultId = key ∧ value = secret ∧ metadata = credentialMetadata description
    | .storeVaultCredential captured secret given _ _ =>
      vaultId = captured ∧ value = secret ∧ metadata = given
    | _ => False
  | vaultDeleted _ _ vaultId =>
    match request.operation with
    | .deleteVaultCredential captured _ _ => vaultId = captured
    | .deleteCredential key => vaultId = key
    | _ => False
  | _ => False

/-- In this order: the call `submission` was answered with the identifier for
this very request, and resolving that identifier started the call. -/
def Released (past : List Effect) (call : Nat) (approvalId : String) (submission : Nat)
    (request : Request) : Prop :=
  ∃ earlier between later,
    past = earlier ++ .pending submission request approvalId ::
      between ++ .approved call approvalId submission :: later

/-- A write is the captured one, and an agent's write has been released before. -/
def Justified (config : Config) (past : List Effect) (effect : Effect) : Prop :=
  ∀ call request, effect.writer = some (call, request) ->
    effect.Executes config request ∧
      (request.needsApproval = true ∨ (∃ approvalId submission,
            .approved call approvalId submission ∈ past) ->
        ∃ approvalId submission,
          Released past call approvalId submission request)

def Effect.releases (submission : Nat) : Effect -> Bool
  | approved _ _ other => other == submission
  | _ => false

def Effect.writtenBy (call : Nat) (effect : Effect) : Bool :=
  effect.writer.any fun writer => writer.1 == call

variable {config : Config} {actor key : String}

theorem prologue_run {underCap : Bool} {operation : String}
    {refusal : Option Refusal} {waits : Bool}
    (runs : prologue config underCap actor operation key refusal waits = .run) :
    refusal = none ∧ waits = false := by
  unfold prologue at runs
  split at runs
  · cases runs
  · split at runs
    · cases runs
    · cases waits with
      | true => cases runs
      | false => exact ⟨rfl, rfl⟩

theorem ungated_key (queue : config.approvals = true)
    (passes : requiresApproval config key actor = false) :
    (isAgent actor && adminOnlyKeys.contains key) = false := by
  unfold requiresApproval at passes
  rw [queue, Bool.and_true] at passes
  cases agent : isAgent actor with
  | false => rfl
  | true =>
    rw [agent, Bool.true_and, Bool.or_eq_false_iff] at passes
    rw [Bool.true_and, passes.2]

theorem ungated_credential (queue : config.approvals = true)
    (checked : credentialCheck key = none) (passes : requiresApproval config key actor = false) :
    isAgent actor = false := by
  unfold credentialCheck at checked
  split at checked
  case isTrue credential =>
    unfold requiresApproval at passes
    rw [queue, credential, Bool.true_or, Bool.and_true, Bool.and_true] at passes
    exact passes
  case isFalse => cases checked

variable {request : Request}

theorem decide_run (queue : config.approvals = true) {underCap : Bool}
    (runs : request.decide config underCap = .run) : request.needsApproval = false := by
  rcases request with ⟨operation, actor⟩
  unfold Request.needsApproval
  cases operation with
  | set key | append key | updateItem key | deleteItem key =>
    exact ungated_key queue (prologue_run runs).2
  | setCredential key =>
    have passed := prologue_run runs
    rw [ungated_credential queue passed.1 passed.2, Bool.false_and]
  | storeVaultCredential vaultId =>
    change storeVaultCredential config underCap vaultId actor = .run at runs
    have passed := (prologue_run runs).2
    rw [queue, Bool.and_true] at passed
    rw [passed, Bool.false_and]
  | deleteVaultCredential vaultId =>
    change deleteVaultCredential config underCap vaultId actor = .run at runs
    have passed := (prologue_run runs).2
    rw [queue, Bool.and_true] at passed
    rw [passed, Bool.false_and]
  | deleteCredential key =>
    have passed := prologue_run runs
    rw [ungated_credential queue passed.1 passed.2, Bool.false_and]

/-! ## What a running call puts out -/

def Stage.unwritten : Stage -> Bool
  | acquiring _ => true
  | locked _ => true
  | writing .. => true
  | _ => false

def Effect.quiet : Effect -> Bool
  | audited .. => true
  | reloaded .. => true
  | changed .. => true
  | answered .. => true
  | _ => false

variable {effect : Effect}

theorem Effect.quiet_writer (quiet : effect.quiet = true) : effect.writer = none := by
  cases effect <;> first | rfl | cases quiet

theorem written_of_ended {stage : Stage} (ended : stage.ended = true) : stage.unwritten = false := by
  cases stage <;> first | rfl | cases ended

variable {state : State} {call : Nat} {change : Change}

theorem vaultCall_writes {approval : Option String} {failure : Option PyError}
    (called : vaultCall state call request approval failure = some change) :
    ∃ effect, change.effects = [effect] ∧ effect.writer = some (call, request) ∧
      effect.Executes config request := by
  unfold vaultCall at called
  split at called
  case h_1 key value description summary same =>
    refine ⟨.vaultStored call request key value (credentialMetadata description), ?_, rfl, ?_⟩
    · cases failure <;> cases called <;> rfl
    · unfold Effect.Executes
      rw [same]
      exact ⟨rfl, rfl, rfl⟩
  case h_2 vaultId value metadata auditKey summary same =>
    refine ⟨.vaultStored call request vaultId value metadata, ?_, rfl, ?_⟩
    · cases failure <;> cases called <;> rfl
    · unfold Effect.Executes
      rw [same]
      exact ⟨rfl, rfl, rfl⟩
  case h_3 vaultId auditKey summary same =>
    refine ⟨.vaultDeleted call request vaultId, ?_, rfl, ?_⟩
    · cases failure with
      | some error =>
        cases called
        rfl
      | none =>
        dsimp only at called
        split at called <;> cases called <;> rfl
    · unfold Effect.Executes
      rw [same]
  case h_4 key same =>
    refine ⟨.vaultDeleted call request key, ?_, rfl, ?_⟩
    · cases failure <;> cases called <;> rfl
    · unfold Effect.Executes
      rw [same]
  case h_5 => cases called

theorem Resumes.effects {approval : Option String} {stage : Stage} {event : Event}
    (resumes : Resumes config state call request approval stage event change)
    (current : stage.Current config request (state.stored request.key)) : stage.ended = false ∧
      (((∀ effect ∈ change.effects, effect.quiet = true) ∧
          (stage.unwritten = false -> change.stage.unwritten = false)) ∨
        ((∃ effect, change.effects = [effect] ∧
            effect.writer = some (call, request) ∧ effect.Executes config request) ∧
          stage.unwritten = true ∧ change.stage.unwritten = false)) := by
  have silent : ∀ effect : Effect, effect ∈ [] -> effect.quiet = true := by
    intro effect member
    cases member
  have stores : ∀ old new, stage = .writing old new ->
      Effect.Executes config request (.stored call request request.key new) := by
    intro old new same
    subst same
    rcases current with ⟨onStore, draws, computed⟩
    exact ⟨rfl, onStore, _, draws, computed⟩
  cases resumes with
  | acquired => exact ⟨rfl, .inl ⟨silent, id⟩⟩
  | unread prepared error draws =>
    exact ⟨rfl, .inl ⟨silent, fun _ =>
      written_of_ended (stop_ended request approval (.raised error))⟩⟩
  | read =>
    refine ⟨rfl, .inl ⟨silent, ?_⟩⟩
    intro impossible
    cases impossible
  | vault prepared failure change called =>
    refine ⟨rfl, .inr ⟨vaultCall_writes called, rfl, ?_⟩⟩
    rcases (vaultCall_offStore called).2.2.2 with audits | ended
    · rw [audits]
      rfl
    · exact written_of_ended ended
  | written old new => exact ⟨rfl, .inr ⟨⟨_, rfl, rfl, stores old new rfl⟩, rfl, rfl⟩⟩
  | unwritten old new error =>
    exact ⟨rfl, .inl ⟨silent, fun _ =>
      written_of_ended (stop_ended request approval (.raised error))⟩⟩
  | writtenLate old new error =>
    exact ⟨rfl, .inr ⟨⟨_, rfl, rfl, stores old new rfl⟩, rfl,
      written_of_ended (stop_ended request approval (.raised error))⟩⟩
  | audited =>
    refine ⟨rfl, .inl ⟨?_, id⟩⟩
    intro effect member
    rw [List.mem_singleton.mp member]
    rfl
  | unaudited old new error =>
    refine ⟨rfl, .inl ⟨?_, fun _ =>
      written_of_ended (stop_ended request approval (.raised error))⟩⟩
    intro effect member
    rw [List.mem_singleton.mp member]
    rfl
  | reloaded =>
    refine ⟨rfl, .inl ⟨?_, id⟩⟩
    intro effect member
    rw [List.mem_singleton.mp member]
    rfl
  | gathered => exact ⟨rfl, .inl ⟨silent, fun _ => rfl⟩⟩
  | emitted =>
    refine ⟨rfl, .inl ⟨?_, fun _ => rfl⟩⟩
    intro effect member
    rcases List.mem_map.mp member with ⟨payload, _, same⟩
    rw [← same]
    rfl
  | cancelled stage runs => exact ⟨runs, .inl ⟨silent, fun _ => rfl⟩⟩

def Effect.Known (state : State) : Effect -> Prop
  | pending submission _ _ => ∃ running, state.calls submission = some running
  | approved call _ submission =>
    (∃ running, state.calls call = some running ∧ running.approval ≠ none) ∧
      ∃ running, state.calls submission = some running
  | effect => ∀ call request, effect.writer = some (call, request) ->
      ∃ running, state.calls call = some running ∧ running.stage.unwritten = false

structure Accounted (config : Config) (state : State) (past : List Effect) : Prop where
  known : ∀ effect ∈ past, effect.Known state
  waiting : ∀ approvalId entry, state.entries approvalId = some entry ->
    .pending entry.submission entry.run approvalId ∈ past ∧
      past.countP (Effect.releases entry.submission) = 0
  apart : ∀ approvalId other entry second, state.entries approvalId = some entry ->
    state.entries other = some second -> entry.submission = second.submission ->
    approvalId = other
  released : ∀ call running approvalId, state.calls call = some running ->
    running.approval = some approvalId -> ∃ submission,
      Released past call approvalId submission running.request
  direct : ∀ call running, state.calls call = some running -> running.approval = none ->
    running.stage.ended = false -> running.request.needsApproval = false
  releasedOnce : ∀ submission, past.countP (Effect.releases submission) ≤ 1
  writtenOnce : ∀ call, past.countP (Effect.writtenBy call) ≤ 1
  justified : ∀ before effect after, past = before ++ effect :: after ->
    Justified config before effect

variable {past : List Effect}

theorem Released.extend {more : List Effect} {approvalId : String}
    {submission : Nat} (released : Released past call approvalId submission request) :
    Released (past ++ more) call approvalId submission request := by
  rcases released with ⟨earlier, between, later, same⟩
  refine ⟨earlier, between, later ++ more, ?_⟩
  simp only [same, List.append_assoc, List.cons_append]

theorem justified_append {more : List Effect}
    (justified : ∀ before effect after, past = before ++ effect :: after ->
      Justified config before effect)
    (new : ∀ before effect after, more = before ++ effect :: after ->
      Justified config (past ++ before) effect)
    (before : List Effect) (effect : Effect) (after : List Effect)
    (split : past ++ more = before ++ effect :: after) : Justified config before effect := by
  rcases List.append_eq_append_iff.mp split with ⟨middle, same, rest⟩ | ⟨middle, same, rest⟩
  · rw [same]
    exact new middle effect after rest
  · cases middle with
    | nil =>
      rw [List.append_nil] at same
      rw [List.nil_append] at rest
      rw [← same, ← List.append_nil past]
      exact new [] effect after rest.symm
    | cons head tail =>
      cases rest
      exact justified before effect tail same

theorem justified_of_no_writer (none : effect.writer = none) : Justified config past effect := by
  intro call request some
  rw [none] at some
  cases some

theorem countP_releases_quiet {effects : List Effect}
    (quiet : ∀ effect ∈ effects, effect.quiet = true) (submission : Nat) :
    effects.countP (Effect.releases submission) = 0 := by
  rw [List.countP_eq_zero]
  intro effect member releases
  have silent := quiet effect member
  cases effect with
  | approved => cases silent
  | _ => exact Bool.false_ne_true releases

theorem countP_written_none {effects : List Effect}
    (none : ∀ effect ∈ effects, effect.writer = Option.none) (call : Nat) :
    effects.countP (Effect.writtenBy call) = 0 := by
  rw [List.countP_eq_zero]
  intro effect member written
  unfold Effect.writtenBy at written
  rw [none effect member] at written
  cases written

def Grows (state after : State) : Prop :=
  ∀ call running, state.calls call = some running ->
    ∃ later, after.calls call = some later ∧ later.approval = running.approval ∧
      (running.stage.unwritten = false -> later.stage.unwritten = false)

theorem Effect.Known.mono {after : State} (known : effect.Known state)
    (grows : Grows state after) : effect.Known after := by
  have call : ∀ call, (∃ running, state.calls call = some running) ->
      ∃ running, after.calls call = some running := by
    rintro call ⟨running, found⟩
    rcases grows call running found with ⟨later, same, _, _⟩
    exact ⟨later, same⟩
  have written : (∀ call request, effect.writer = some (call, request) ->
      ∃ running, state.calls call = some running ∧ running.stage.unwritten = false) ->
      ∀ call request, effect.writer = some (call, request) ->
        ∃ running, after.calls call = some running ∧ running.stage.unwritten = false := by
    intro before call request writer
    rcases before call request writer with ⟨running, found, done⟩
    rcases grows call running found with ⟨later, same, _, kept⟩
    exact ⟨later, same, kept done⟩
  cases effect with
  | pending submission request approvalId => exact call submission known
  | approved starter approvalId submission =>
    rcases known with ⟨⟨running, found, approved⟩, submitted⟩
    rcases grows starter running found with ⟨later, same, kept, _⟩
    exact ⟨⟨later, same, kept ▸ approved⟩, call submission submitted⟩
  | stored | vaultStored | vaultDeleted | audited | reloaded | changed | answered =>
    exact written known

theorem grows_place {id : Nat} (fresh : state.calls id = none) (running : Call) :
    Grows state (state.place id running) := by
  intro call before found
  refine ⟨before, ?_, rfl, fun done => done⟩
  unfold State.place
  dsimp only
  rw [Function.update_of_ne]
  · exact found
  · intro same
    rw [same, fresh] at found
    cases found

theorem grows_apply {id : Nat} {running : Call} (known : state.calls id = some running)
    (kept : running.stage.unwritten = false -> change.stage.unwritten = false) :
    Grows state (state.apply id running change) := by
  intro call before found
  by_cases same : call = id
  · subst same
    rw [known] at found
    cases found
    exact ⟨_, apply_calls_self state call running change, rfl, kept⟩
  · rw [apply_calls_other state running change same]
    exact ⟨before, found, rfl, fun done => done⟩

/-- Each call was there before, with its approval, or has none and needs none. -/
def CallsKept (state after : State) : Prop :=
  ∀ call running, after.calls call = some running ->
    (∃ before, state.calls call = some before ∧ before.request = running.request ∧
      before.approval = running.approval ∧
      (running.stage.ended = false -> before.stage.ended = false)) ∨
    (running.approval = none ∧
      (running.stage.ended = false -> running.request.needsApproval = false))

namespace Accounted

variable {config : Config} {state after : State} {past effects : List Effect}

theorem still (accounted : Accounted config state past) (grows : Grows state after)
    (queue : after.entries = state.entries)
    (calls : CallsKept state after)
    (known : ∀ effect ∈ effects, effect.Known after)
    (unreleased : ∀ submission, effects.countP (Effect.releases submission) = 0)
    (once : ∀ call, (past ++ effects).countP (Effect.writtenBy call) ≤ 1)
    (justified : ∀ before effect rest, effects = before ++ effect :: rest ->
      Justified config (past ++ before) effect) : Accounted config after (past ++ effects) where
  known := by
    intro effect member
    rcases List.mem_append.mp member with old | new
    · exact (accounted.known effect old).mono grows
    · exact known effect new
  waiting := by
    intro approvalId entry found
    rw [queue] at found
    have waits := accounted.waiting approvalId entry found
    refine ⟨List.mem_append_left _ waits.1, ?_⟩
    rw [List.countP_append, waits.2, unreleased]
  apart := by
    rw [queue]
    exact accounted.apart
  released := by
    intro call running approvalId found approved
    rcases calls call running found with ⟨before, old, request, approval, _⟩ | ⟨direct, _⟩
    · rw [← approval] at approved
      rcases accounted.released call before approvalId old approved with ⟨submission, released⟩
      rw [request] at released
      exact ⟨submission, released.extend⟩
    · rw [direct] at approved
      cases approved
  direct := by
    intro call running found direct runs
    rcases calls call running found with ⟨before, old, request, approval, kept⟩ | ⟨_, free⟩
    · rw [← request]
      exact accounted.direct call before old (approval.trans direct) (kept runs)
    · exact free runs
  releasedOnce := by
    intro submission
    rw [List.countP_append, unreleased, Nat.add_zero]
    exact accounted.releasedOnce submission
  writtenOnce := once
  justified := justified_append accounted.justified justified

theorem quiet (accounted : Accounted config state past) (grows : Grows state after)
    (queue : after.entries = state.entries)
    (calls : CallsKept state after)
    (silent : ∀ effect ∈ effects, effect.quiet = true) :
    Accounted config after (past ++ effects) := by
  have unwritten : ∀ effect ∈ effects, effect.writer = none :=
    fun effect member => Effect.quiet_writer (silent effect member)
  refine accounted.still grows queue calls ?_ (countP_releases_quiet silent) ?_ ?_
  · intro effect member
    have none := unwritten effect member
    have free : ∀ call request, effect.writer = some (call, request) ->
        ∃ running, after.calls call = some running ∧ running.stage.unwritten = false := by
      intro call request writes
      rw [none] at writes
      cases writes
    have still := silent effect member
    cases effect with
    | pending => cases still
    | approved => cases still
    | _ => exact free
  · intro call
    rw [List.countP_append, countP_written_none unwritten, Nat.add_zero]
    exact accounted.writtenOnce call
  · intro before effect rest split
    refine justified_of_no_writer (unwritten effect ?_)
    rw [split]
    exact List.mem_append_right _ List.mem_cons_self

variable {running : Call}

theorem placed {id : Nat} (direct : running.approval = none)
    (free : running.stage.ended = false -> running.request.needsApproval = false)
    (call : Nat) (found : Call) (known : (state.place id running).calls call = some found) :
    (∃ before, state.calls call = some before ∧ before.request = found.request ∧
        before.approval = found.approval ∧
        (found.stage.ended = false -> before.stage.ended = false)) ∨ (found.approval = none ∧
        (found.stage.ended = false -> found.request.needsApproval = false)) := by
  rcases place_calls known with ⟨_, same⟩ | ⟨_, before⟩
  · rw [same]
    exact .inr ⟨direct, free⟩
  · exact .inl ⟨found, before, rfl, rfl, fun runs => runs⟩

theorem moved {id : Nat} {change : Change} (known : state.calls id = some running)
    (runs : running.stage.ended = false) (call : Nat) (found : Call)
    (here : (state.apply id running change).calls call = some found) :
    (∃ before, state.calls call = some before ∧ before.request = found.request ∧
        before.approval = found.approval ∧
        (found.stage.ended = false -> before.stage.ended = false)) ∨ (found.approval = none ∧
        (found.stage.ended = false -> found.request.needsApproval = false)) := by
  rcases apply_calls here with ⟨same, equal⟩ | ⟨_, before⟩
  · rw [same, equal]
    exact .inl ⟨running, known, rfl, rfl, fun _ => runs⟩
  · exact .inl ⟨found, before, rfl, rfl, fun still => still⟩

theorem unwritten (accounted : Accounted config state past) {id : Nat}
    (known : state.calls id = some running) (before : running.stage.unwritten = true) :
    past.countP (Effect.writtenBy id) = 0 := by
  rw [List.countP_eq_zero]
  intro effect member written
  cases writer : effect.writer with
  | none =>
    unfold Effect.writtenBy at written
    rw [writer] at written
    cases written
  | some pair =>
    unfold Effect.writtenBy at written
    rw [writer] at written
    have here : pair.1 = id := eq_of_beq written
    have knows := accounted.known effect member
    have told : ∃ running, state.calls pair.1 = some running ∧
        running.stage.unwritten = false := by
      cases effect with
      | pending => cases writer
      | approved => cases writer
      | _ => exact knows pair.1 pair.2 writer
    rcases told with ⟨again, found, past⟩
    rw [here, known] at found
    cases found
    rw [before] at past
    cases past

theorem resumed {id : Nat} {event : Event} {change : Change}
    (accounted : Accounted config state past) (locked : Locked config state)
    (known : state.calls id = some running)
    (resumes : Resumes config state id running.request running.approval running.stage event change) :
    Accounted config (state.apply id running change) (past ++ change.effects) := by
  rcases resumes.effects (locked.current id running known) with
    ⟨runs, ⟨silent, kept⟩ | ⟨⟨effect, same, writer, executes⟩, before, done⟩⟩
  · exact accounted.quiet (grows_apply known kept) rfl (moved known runs) silent
  · rw [same]
    refine accounted.still (grows_apply known ?_) rfl (moved known runs) ?_ ?_ ?_ ?_
    · intro impossible
      rw [before] at impossible
      cases impossible
    · intro member inside
      rw [List.mem_singleton.mp inside]
      have wrote : ∀ call request, effect.writer = some (call, request) ->
          ∃ later, (state.apply id running change).calls call = some later ∧
            later.stage.unwritten = false := by
        intro call request this
        rw [writer] at this
        cases this
        exact ⟨_, apply_calls_self state id running change, done⟩
      cases effect with
      | pending => cases writer
      | approved => cases writer
      | _ => exact wrote
    · intro submission
      cases effect with
      | approved => cases writer
      | _ => rfl
    · intro call
      rw [List.countP_append, List.countP_singleton]
      by_cases here : call = id
      · rw [here, accounted.unwritten known before]
        split <;> decide
      · have other : effect.writtenBy call = false := by
          unfold Effect.writtenBy
          rw [writer]
          exact beq_eq_false_iff_ne.mpr (Ne.symm here)
        rw [other]
        exact accounted.writtenOnce call
    · intro earlier written rest split
      have parts := List.append_eq_singleton_iff.mp split.symm
      rcases parts with ⟨nil, one⟩ | ⟨_, none⟩
      · cases one
        rw [nil, List.append_nil]
        intro call request wrote
        rw [writer] at wrote
        cases wrote
        refine ⟨executes, ?_⟩
        intro demands
        cases approval : running.approval with
        | some approvalId =>
          rcases accounted.released id running approvalId known approval with
            ⟨submission, released⟩
          exact ⟨approvalId, submission, released⟩
        | none =>
          rcases demands with needs | ⟨approvalId, submission, approved⟩
          · rw [accounted.direct id running known approval runs] at needs
            cases needs
          · rcases (accounted.known _ approved).1 with ⟨again, found, some⟩
            rw [known] at found
            cases found
            exact absurd approval some
      · cases none

theorem justified_unwriting (accounted : Accounted config state past) {effect : Effect}
    (none : effect.writer = none) (before : List Effect) (written : Effect) (rest : List Effect)
    (split : past ++ [effect] = before ++ written :: rest) : Justified config before written := by
  refine justified_append accounted.justified ?_ before written rest split
  intro first second later parts
  rcases List.append_eq_singleton_iff.mp parts.symm with ⟨_, one⟩ | ⟨_, impossible⟩
  · cases one
    exact justified_of_no_writer none
  · cases impossible

theorem writtenOnce_unwriting (accounted : Accounted config state past) {effect : Effect}
    (none : effect.writer = none) (call : Nat) :
    (past ++ [effect]).countP (Effect.writtenBy call) ≤ 1 := by
  have silent : [effect].countP (Effect.writtenBy call) = 0 := by
    refine countP_written_none ?_ call
    intro member inside
    rw [List.mem_singleton.mp inside]
    exact none
  rw [List.countP_append, silent, Nat.add_zero]
  exact accounted.writtenOnce call

theorem unreleased (accounted : Accounted config state past) {id : Nat}
    (fresh : state.calls id = none) : past.countP (Effect.releases id) = 0 := by
  rw [List.countP_eq_zero]
  intro effect member releases
  cases effect with
  | approved call approvalId submission =>
    have same : submission = id := eq_of_beq releases
    rcases (accounted.known _ member).2 with ⟨running, found⟩
    rw [same, fresh] at found
    cases found
  | _ => exact Bool.false_ne_true releases

theorem queued (accounted : Accounted config state past) {id : Nat} {request : Request}
    {hex : String} (fresh : state.calls id = none) :
    Accounted config (submit state id request hex).1 (past ++ (submit state id request hex).2) where
  known := by
    intro effect member
    have grows : Grows state (submit state id request hex).1 :=
      grows_place fresh ⟨request, none, .returned (pendingResult request ("approve-" ++ hex))⟩
    rcases List.mem_append.mp member with old | new
    · exact (accounted.known effect old).mono grows
    · rw [List.mem_singleton.mp new]
      exact ⟨_, update_self ..⟩
  waiting := by
    intro approvalId entry found
    change update state.entries ("approve-" ++ hex) _ approvalId = some entry at found
    have silent : (submit state id request hex).2.countP (Effect.releases entry.submission) = 0 := rfl
    rw [List.countP_append, silent, Nat.add_zero]
    rw [update_apply] at found
    split at found
    case isTrue same =>
      cases found
      rw [same]
      exact ⟨List.mem_append_right _ List.mem_cons_self, accounted.unreleased fresh⟩
    case isFalse =>
      have waits := accounted.waiting approvalId entry found
      exact ⟨List.mem_append_left _ waits.1, waits.2⟩
  apart := by
    have older : ∀ approvalId entry, state.entries approvalId = some entry ->
        entry.submission ≠ id := by
      intro approvalId entry found same
      rcases accounted.known _ (accounted.waiting approvalId entry found).1 with ⟨running, known⟩
      rw [same, fresh] at known
      cases known
    intro approvalId other entry second found beside same
    change update state.entries ("approve-" ++ hex) _ approvalId = some entry at found
    change update state.entries ("approve-" ++ hex) _ other = some second at beside
    rw [update_apply] at found beside
    split at found <;> split at beside
    case isTrue.isTrue here there => rw [here, there]
    case isTrue.isFalse =>
      cases found
      exact absurd same.symm (older other second beside)
    case isFalse.isTrue =>
      cases beside
      exact absurd same (older approvalId entry found)
    case isFalse.isFalse => exact accounted.apart approvalId other entry second found beside same
  released := by
    intro call running approvalId found approved
    rcases place_calls found with ⟨_, same⟩ | ⟨_, before⟩
    · rw [same] at approved
      cases approved
    · rcases accounted.released call running approvalId before approved with
        ⟨submission, released⟩
      exact ⟨submission, released.extend⟩
  direct := by
    intro call running found direct runs
    rcases place_calls found with ⟨_, same⟩ | ⟨_, before⟩
    · rw [same] at runs
      cases runs
    · exact accounted.direct call running before direct runs
  releasedOnce := by
    intro submission
    have silent : (submit state id request hex).2.countP (Effect.releases submission) = 0 := rfl
    rw [List.countP_append, silent, Nat.add_zero]
    exact accounted.releasedOnce submission
  writtenOnce := accounted.writtenOnce_unwriting rfl
  justified := accounted.justified_unwriting rfl

theorem approved (accounted : Accounted config state past) {id : Nat} {approvalId : String}
    {entry : PendingEntry} {draws : List String} (fresh : state.calls id = none)
    (waits : state.entries approvalId = some entry) : Accounted config
      { state.place id
            ⟨entry.run, some approvalId, begin config entry.run (some approvalId) draws⟩ with
          entries := update state.entries approvalId none }
      (past ++ [.approved id approvalId entry.submission]) where
  known := by
    intro effect member
    rcases List.mem_append.mp member with old | new
    · exact (accounted.known effect old).mono (grows_place fresh
        ⟨entry.run, some approvalId, begin config entry.run (some approvalId) draws⟩)
    · rw [List.mem_singleton.mp new]
      rcases accounted.known _ (accounted.waiting approvalId entry waits).1 with ⟨running, known⟩
      rcases grows_place fresh
        ⟨entry.run, some approvalId, begin config entry.run (some approvalId) draws⟩
          entry.submission running known with ⟨later, same, _⟩
      refine ⟨⟨_, update_self .., ?_⟩, later, same⟩
      intro impossible
      cases impossible
  waiting := by
    intro other second found
    change update state.entries approvalId none other = some second at found
    rw [update_apply] at found
    split at found
    case isTrue => cases found
    case isFalse different =>
      have waits' := accounted.waiting other second found
      refine ⟨List.mem_append_left _ waits'.1, ?_⟩
      have unlike : Effect.releases second.submission
          (.approved id approvalId entry.submission) = false := by
        refine beq_eq_false_iff_ne.mpr ?_
        intro same
        exact different (accounted.apart approvalId other entry second waits found same).symm
      rw [List.countP_append, waits'.2, List.countP_singleton, unlike]
      rfl
  apart := by
    intro first other one second found beside same
    change update state.entries approvalId none first = some one at found
    change update state.entries approvalId none other = some second at beside
    rw [update_apply] at found beside
    split at found
    · cases found
    · split at beside
      · cases beside
      · exact accounted.apart first other one second found beside same
  released := by
    intro call running identifier found approved
    rcases place_calls found with ⟨here, same⟩ | ⟨_, before⟩
    · rw [same] at approved ⊢
      cases approved
      rcases List.append_of_mem (accounted.waiting approvalId entry waits).1 with
        ⟨earlier, between, split⟩
      refine ⟨entry.submission, earlier, between, [], ?_⟩
      rw [here, split]
    · rcases accounted.released call running identifier before approved with
        ⟨submission, released⟩
      exact ⟨submission, released.extend⟩
  direct := by
    intro call running found direct runs
    rcases place_calls found with ⟨_, same⟩ | ⟨_, before⟩
    · rw [same] at direct
      cases direct
    · exact accounted.direct call running before direct runs
  releasedOnce := by
    intro submission
    rw [List.countP_append, List.countP_singleton]
    by_cases here : submission = entry.submission
    · rw [here, (accounted.waiting approvalId entry waits).2]
      split <;> decide
    · have unlike : Effect.releases submission (.approved id approvalId entry.submission) = false :=
        beq_eq_false_iff_ne.mpr (Ne.symm here)
      rw [unlike]
      exact accounted.releasedOnce submission
  writtenOnce := accounted.writtenOnce_unwriting rfl
  justified := accounted.justified_unwriting rfl

theorem step (queue : config.approvals = true) (accounted : Accounted config state past)
    (locked : Locked config state) {input : Input} (moves : Moves config state input after effects) :
    Accounted config after (past ++ effects) := by
  have unchanged : CallsKept state state := fun call running found => .inl ⟨running, found, rfl, rfl, fun runs => runs⟩
  have same : Grows state state := fun call running found => ⟨running, found, rfl, fun done => done⟩
  cases moves with
  | idle =>
    refine accounted.quiet same rfl unchanged ?_
    intro effect member
    cases member
  | unknown id approvalId draws result =>
    refine accounted.quiet same rfl unchanged ?_
    intro effect member
    rw [List.mem_singleton.mp member]
    rfl
  | refused id request underCap hex draws result fresh =>
    refine accounted.quiet (grows_place fresh _) rfl (placed rfl ?_) ?_
    · intro impossible
      cases impossible
    · intro effect member
      cases member
  | queued id request underCap hex draws fresh => exact accounted.queued fresh
  | started id request underCap hex draws fresh runs =>
    refine accounted.quiet (grows_place fresh _) rfl (placed rfl ?_) ?_
    · intro _
      exact decide_run queue runs
    · intro effect member
      cases member
  | approved id approvalId entry draws fresh waits => exact accounted.approved fresh waits
  | resumed id running event change known resumed =>
    exact accounted.resumed locked known (resumes_of_resume resumed)

end Accounted

theorem accounted_initial (config : Config) (start : Start) :
    Accounted config (service config start).initial [] where
  known := by
    intro effect member
    cases member
  waiting := by
    intro approvalId entry found
    cases found
  apart := by
    intro approvalId other entry second found
    cases found
  released := by
    intro call running approvalId found
    cases found
  direct := by
    intro call running found
    cases found
  releasedOnce := fun _ => Nat.zero_le 1
  writtenOnce := fun _ => Nat.zero_le 1
  justified := by
    intro before effect after split
    cases before <;> cases split

theorem accounted_after (config : Config) (queue : config.approvals = true) (start : Start)
    (inputs : List Input) :
    Accounted config ((service config start).after inputs) (trace config start inputs) := by
  induction inputs using List.reverseRecOn with
  | nil => exact accounted_initial config start
  | append_singleton earlier input ih =>
    unfold trace at ih ⊢
    rw [Machine.outputs_append_singleton, Machine.after_append_singleton]
    exact ih.step queue (locked_after config start earlier)
      (step_moves config _ input)

/-- With an approval queue, in every run: an agent's writes come behind the approval
of that very request, an approval executes the request it captured, and releases and
writes happen at most once. -/
theorem agent_writes_approved_run (config : Config) (queue : config.approvals = true)
    (start : Start) (inputs : List Input) :
    (∀ before effect after, trace config start inputs = before ++ effect :: after ->
        Justified config before effect) ∧
      (∀ submission, (trace config start inputs).countP (Effect.releases submission) ≤ 1) ∧
      (∀ call, (trace config start inputs).countP (Effect.writtenBy call) ≤ 1) :=
  have accounted := accounted_after config queue start inputs
  ⟨accounted.justified, accounted.releasedOnce, accounted.writtenOnce⟩

def agentConfig : Config where
  validators := fun _ _ _ => .error (.validation "unknown key")
  subscriptions := []
  eventBus := false
  approvals := true
  rateLimiter := false

def emptyStart : Start where
  stored := fun _ => .null
  vault := fun _ => none
  copies := fun _ => .null

def storeKey : Request where
  operation := .setCredential "apikey:OPENAI_API_KEY" "sk-one" "" none
  actor := "agent:core"

def approvedRun : List Input :=
  [.call 0 storeKey true "00c0ffee" [], .resolve 1 "approve-00c0ffee" [],
    .resolve 2 "approve-00c0ffee" [],
    .resume 1 .acquired,
    .resume 1 (.vault none)]

theorem approvedRun_approved : (trace agentConfig emptyStart approvedRun =
      [.pending 0 storeKey "approve-00c0ffee", .approved 1 "approve-00c0ffee" 0,
        .answered 2 (.refused "resolve_approval" "" (.unknownApproval "approve-00c0ffee")),
        .vaultStored 1 storeKey "apikey:OPENAI_API_KEY" "sk-one" none]) ∧
      storeKey.needsApproval = true ∧ Justified agentConfig
        [.pending 0 storeKey "approve-00c0ffee", .approved 1 "approve-00c0ffee" 0,
          .answered 2 (.refused "resolve_approval" "" (.unknownApproval "approve-00c0ffee"))]
        (.vaultStored 1 storeKey "apikey:OPENAI_API_KEY" "sk-one" none) := by
  have ran : trace agentConfig emptyStart approvedRun =
      [.pending 0 storeKey "approve-00c0ffee", .approved 1 "approve-00c0ffee" 0,
        .answered 2 (.refused "resolve_approval" "" (.unknownApproval "approve-00c0ffee")),
        .vaultStored 1 storeKey "apikey:OPENAI_API_KEY" "sk-one" none] := by
    rfl
  exact ⟨ran, by decide,
    (agent_writes_approved_run agentConfig rfl emptyStart approvedRun).1 _ _ [] ran⟩

end Settings
end BreadMind
