import BreadMind.Base.Values
import Mathlib.Data.List.Basic

namespace BreadMind
namespace Webhook

/-!
# Pipelines of actions

The actions of a pipeline have their turns one after the other.  Whatever the handlers answer, a run
is told by its turns: how often each one called its handler, and the result which it left in the log.
-/

inductive ActionType where
  | sendToAgent
  | callTool
  | httpRequest
  | notify
  | transform
  deriving DecidableEq

inductive FailureStrategy where
  | stop
  | continue_
  | retry
  | fallback

inductive PermissionLevel where
  | readOnly
  | standard
  | elevated
  | admin

def ActionType.value : ActionType -> String
  | .sendToAgent => "send_to_agent"
  | .callTool => "call_tool"
  | .httpRequest => "http_request"
  | .notify => "notify"
  | .transform => "transform"

def PermissionLevel.value : PermissionLevel -> String
  | .readOnly => "read_only"
  | .standard => "standard"
  | .elevated => "elevated"
  | .admin => "admin"

def PermissionLevel.canExecute (actionType : ActionType) : PermissionLevel -> Bool
  | .readOnly => actionType ∈ [.transform, .notify]
  | .standard => actionType ∈ [.transform, .notify, .sendToAgent, .httpRequest]
  | .elevated => actionType ∈ [.transform, .notify, .sendToAgent, .httpRequest, .callTool]
  | .admin => true

structure ActionResult where
  success : Bool
  output : String := ""
  error : String := ""

structure PipelineAction where
  id : String
  actionType : ActionType
  onFailure : FailureStrategy := .stop
  maxRetries : Int := 0

structure Pipeline where
  id : String
  name : String
  actions : List PipelineAction
  enabled : Bool := true

structure ExecutionLog where
  pipelineId : String
  pipelineName : String
  success : Bool := true
  error : String := ""
  actionResults : List ActionResult := []
  startedAt : Option Int := none
  finishedAt : Option Int := none
  durationMs : Rat := 0

structure Readings where
  startedAt : Int
  finishedAt : Int
  startMono : Rat
  endMono : Rat

/-- The results in the log, and the calls of the handlers so far. -/
structure Progress where
  results : List ActionResult := []
  calls : List PipelineAction := []

/-- `answer` is what a handler answers to an action after the given calls, and `level` what the
caller may do. -/
structure PipelineExecutor where
  registered : ActionType -> Bool
  answer : List PipelineAction -> PipelineAction -> Except PyError ActionResult
  level : PermissionLevel

namespace PipelineExecutor

variable (executor : PipelineExecutor) (action : PipelineAction)

def retryLoop : Nat -> Progress -> Except PyError Bool × Progress
  | 0, run => (.ok true, run)
  | attempts + 1, run =>
    let called := { run with calls := run.calls ++ [action] }
    match executor.answer run.calls action with
    | .error error => (.error error, called)
    | .ok result =>
      -- The failed result before it is replaced.
      let replaced := { called with results := run.results.dropLast ++ [result] }
      if result.success then (.ok false, replaced) else retryLoop attempts replaced

def handleFailure (run : Progress) : Except PyError Bool × Progress :=
  match action.onFailure with
  | .stop => (.ok true, run)
  | .continue_ => (.ok false, run)
  | .retry =>
    if executor.registered action.actionType then executor.retryLoop action action.maxRetries.toNat run
    else (.ok true, run)
  | .fallback => (.ok true, run)

def turn (run : Progress) : Except PyError Bool × Progress :=
  if executor.level.canExecute action.actionType then
    if executor.registered action.actionType then
      let called := { run with calls := run.calls ++ [action] }
      match executor.answer run.calls action with
      | .error error => (.error error, called)
      | .ok result =>
        let recorded := { called with results := run.results ++ [result] }
        if result.success then (.ok false, recorded) else executor.handleFailure action recorded
    else
      (.ok true, { run with results := run.results ++ [{
        success := false
        error := "No handler registered for action type '" ++ action.actionType.value ++ "'" }] })
  else
    (.ok true, { run with results := run.results ++ [{
      success := false
      error := "Permission denied: '" ++ executor.level.value ++ "' cannot execute action type '" ++
        action.actionType.value ++ "'" }] })

/-- The loop over the actions: whether one of them stopped the pipeline. -/
def turns : List PipelineAction -> Progress -> Except PyError Bool × Progress
  | [], run => (.ok false, run)
  | action :: rest, run =>
    match executor.turn action run with
    | (.ok false, run) => turns rest run
    | stopped => stopped

def execute (pipeline : Pipeline) (clock : Readings) :
    Except PyError ExecutionLog × List PipelineAction :=
  let log : ExecutionLog := {
    pipelineId := pipeline.id
    pipelineName := pipeline.name
    startedAt := some clock.startedAt
    finishedAt := some clock.finishedAt
    durationMs := (clock.endMono - clock.startMono) * 1000 }
  if pipeline.enabled then
    let (outcome, run) := executor.turns pipeline.actions {}
    (outcome.map fun stops => { log with success := !stops, actionResults := run.results }, run.calls)
  else
    (.ok { log with success := false, error := "Pipeline '" ++ pipeline.name ++ "' is disabled" }, [])

end PipelineExecutor

/-- What the handler answered to the calls of a turn.  There is no result if an exception cut it. -/
structure Turn where
  action : PipelineAction
  answers : List (Except PyError ActionResult)
  result : Option ActionResult

/-- The action was refused, or it failed and its strategy does not go on, or it raised. -/
def Turn.Stops (turn : Turn) : Prop :=
  ∀ result ∈ turn.result, turn.answers = [] ∨
    (result.success = false ∧ turn.action.onFailure ≠ .continue_)

/-- The level allows the action, and there is a handler for it. -/
def PipelineExecutor.MayCall (executor : PipelineExecutor) (action : PipelineAction) : Prop :=
  executor.level.canExecute action.actionType = true ∧ executor.registered action.actionType = true

/-- A turn after these calls: the handler is called if that is allowed, and again only after a
failure of a `RETRY` action, until it succeeds or raises or the retries are used up; the last answer
is the result. -/
structure Turn.After (executor : PipelineExecutor) (before : List PipelineAction) (turn : Turn) :
    Prop where
  called : turn.answers ≠ [] <-> executor.MayCall turn.action
  answered : ∀ index answer, turn.answers[index]? = some answer ->
    executor.answer (before ++ List.replicate index turn.action) turn.action = answer
  again : ∀ answer ∈ turn.answers.dropLast, turn.action.onFailure = .retry ∧
    ∃ result, answer = .ok result ∧ result.success = false
  bounded : turn.answers.length ≤ 1 + turn.action.maxRetries.toNat
  exhausted : ∀ result, turn.answers.getLast? = some (.ok result) -> result.success = false ->
    turn.action.onFailure = .retry -> turn.answers.length = 1 + turn.action.maxRetries.toNat
  refused : turn.answers = [] -> ∃ result, turn.result = some result ∧ result.success = false
  last : ∀ answer, turn.answers.getLast? = some answer -> turn.result = answer.toOption

def callsOf (told : List Turn) : List PipelineAction :=
  told.flatMap fun turn => List.replicate turn.answers.length turn.action

/-- What holds of the turns of a run: an action is left out only behind one that stops. -/
structure Told (executor : PipelineExecutor) (start : List PipelineAction)
    (actions : List PipelineAction) (told : List Turn) : Prop where
  attempted : told.map Turn.action <+: actions
  complete : (∀ turn ∈ told, ¬ turn.Stops) -> told.map Turn.action = actions
  goesOn : told.Pairwise fun turn _ => ¬ turn.Stops
  turns : ∀ before turn after, told = before ++ turn :: after ->
    turn.After executor (start ++ callsOf before)

structure Logged (mayRun : Prop) (told : List Turn) (log : ExecutionLog) : Prop where
  finished : log.finishedAt.isSome = true
  recorded : log.actionResults.map some = told.map Turn.result
  success : log.success = true <-> mayRun ∧ ∀ turn ∈ told, ¬ turn.Stops

namespace PipelineExecutor

variable {executor : PipelineExecutor} {action : PipelineAction}

/-- What the turns add to the run, which stops if the last one does. -/
structure Ends (executor : PipelineExecutor) (run : Progress) (told : List Turn)
    (outcome : Except PyError Bool × Progress) : Prop where
  calls : outcome.2.calls = run.calls ++ callsOf told
  ok : ∀ stops, outcome.1 = .ok stops -> (stops = true <-> ∃ turn ∈ told, turn.Stops) ∧
    outcome.2.results.map some = run.results.map some ++ told.map Turn.result
  error : ∀ error, outcome.1 = .error error -> (∃ turn ∈ told, turn.Stops) ∧
    ∃ before action, executor.answer before action = .error error

section

variable {start run : Progress} {answers : List (Except PyError ActionResult)}

theorem ends_ok {result : ActionResult} {stops : Bool}
    (calls : run.calls = start.calls ++ List.replicate answers.length action)
    (results : run.results = start.results ++ [result])
    (same : stops = true <-> Turn.Stops ⟨action, answers, some result⟩) :
    Ends executor start [⟨action, answers, some result⟩] (.ok stops, run) where
  calls := calls.trans (congrArg _ (List.append_nil _).symm)
  ok := by
    rintro _ ⟨⟩
    exact ⟨same.trans (by simp), by rw [results, List.map_append]; rfl⟩
  error := nofun

theorem ends_error {error : PyError} {before : List PipelineAction}
    (calls : run.calls = start.calls ++ List.replicate answers.length action)
    (raised : executor.answer before action = .error error) :
    Ends executor start [⟨action, answers, none⟩] (.error error, run) where
  calls := calls.trans (congrArg _ (List.append_nil _).symm)
  ok := nofun
  error := by
    rintro _ ⟨⟩
    exact ⟨⟨_, List.mem_singleton_self _, nofun⟩, before, action, raised⟩

structure Asked (executor : PipelineExecutor) (action : PipelineAction)
    (before : List PipelineAction) (answers : List (Except PyError ActionResult)) : Prop where
  answered : ∀ index answer, answers[index]? = some answer ->
    executor.answer (before ++ List.replicate index action) action = answer
  again : ∀ answer ∈ answers.dropLast, action.onFailure = .retry ∧
    ∃ result, answer = .ok result ∧ result.success = false
  bounded : answers.length ≤ 1 + action.maxRetries.toNat

theorem asked_first (executor : PipelineExecutor) (action : PipelineAction)
    (before : List PipelineAction) :
    Asked executor action before [executor.answer before action] where
  answered := by
    rintro (_ | index) answer here
    · rw [List.replicate_zero, List.append_nil]
      exact Option.some.inj here
    · cases here
  again := nofun
  bounded := Nat.le_add_right 1 _

theorem Asked.next (asked : Asked executor action start.calls answers)
    (retries : action.onFailure = .retry)
    (failed : ∀ answer ∈ answers, ∃ result, answer = .ok result ∧ result.success = false)
    (calls : run.calls = start.calls ++ List.replicate answers.length action)
    (room : answers.length < 1 + action.maxRetries.toNat) :
    Asked executor action start.calls (answers ++ [executor.answer run.calls action]) where
  answered := by
    intro index answer here
    rcases Nat.lt_trichotomy index answers.length with earlier | same | beyond
    · rw [List.getElem?_append_left earlier] at here
      exact asked.answered index answer here
    · rw [same, List.getElem?_concat_length] at here
      rw [same, ← calls]
      exact Option.some.inj here
    · rw [List.getElem?_eq_none (by rw [List.length_append, List.length_singleton]; omega)] at here
      cases here
  again := by
    rw [List.dropLast_concat]
    exact fun answer member => ⟨retries, failed answer member⟩
  bounded := by
    rw [List.length_append, List.length_singleton]
    omega

theorem Asked.after (asked : Asked executor action start.calls answers)
    (allowed : executor.MayCall action) {answer : Except PyError ActionResult}
    (last : answers.getLast? = some answer)
    (exhausted : ∀ result, answer = .ok result -> result.success = false ->
      action.onFailure = .retry -> answers.length = 1 + action.maxRetries.toNat) :
    Turn.After executor start.calls ⟨action, answers, answer.toOption⟩ where
  called := by
    refine iff_of_true (fun none => ?_) allowed
    rw [show answers = [] from none] at last
    cases last
  answered := asked.answered
  again := asked.again
  bounded := asked.bounded
  exhausted := fun result here => exhausted result (Option.some.inj (last.symm.trans here))
  refused := fun none => by
    rw [show answers = [] from none] at last
    cases last
  last := fun other here => congrArg Except.toOption (Option.some.inj (last.symm.trans here))

theorem calls_succ (calls : run.calls = start.calls ++ List.replicate answers.length action)
    (answer : Except PyError ActionResult) :
    run.calls ++ [action] = start.calls ++ List.replicate (answers ++ [answer]).length action := by
  rw [calls, List.append_assoc, List.length_append, List.length_singleton, List.replicate_succ']

end

theorem stops_iff {answers : List (Except PyError ActionResult)} {result : ActionResult}
    (called : answers ≠ []) : Turn.Stops ⟨action, answers, some result⟩ <->
      result.success = false ∧ action.onFailure ≠ .continue_ := by
  simp [Turn.Stops, called]

/-- The retries after these answers, by induction on those that are left. -/
theorem retryLoop_ends {start : Progress} (run : Progress)
    {answers : List (Except PyError ActionResult)} {failure : ActionResult}
    (retries : action.onFailure = .retry) (allowed : executor.MayCall action)
    (asked : Asked executor action start.calls answers)
    (failed : ∀ answer ∈ answers, ∃ result, answer = .ok result ∧ result.success = false)
    (last : answers.getLast? = some (.ok failure))
    (calls : run.calls = start.calls ++ List.replicate answers.length action)
    (results : run.results = start.results ++ [failure]) (attempts : Nat)
    (left : answers.length + attempts = 1 + action.maxRetries.toNat) :
    ∃ turn, turn.action = action ∧ turn.After executor start.calls ∧
      Ends executor start [turn] (executor.retryLoop action attempts run) := by
  induction attempts generalizing run answers failure with
  | zero =>
    refine ⟨_, rfl, asked.after allowed last fun _ _ _ _ => left, ends_ok calls results ?_⟩
    rcases failed _ (List.mem_of_getLast? last) with ⟨_, ⟨⟩, fails⟩
    have some_ : answers ≠ [] := by
      rintro rfl
      cases last
    simp [stops_iff some_, fails, retries]
  | succ attempts ih =>
    have further := asked.next retries failed calls (by omega)
    have behind : (answers ++ [executor.answer run.calls action]).getLast? =
        some (executor.answer run.calls action) := List.getLast?_concat
    have some_ := List.append_ne_nil_of_right_ne_nil answers
      (List.cons_ne_nil (executor.answer run.calls action) [])
    have called := calls_succ calls (executor.answer run.calls action)
    unfold retryLoop
    dsimp only
    cases given : executor.answer run.calls action with
    | error error =>
      rw [given] at further behind called
      exact ⟨_, rfl, further.after allowed behind nofun, ends_error called given⟩
    | ok result =>
      rw [given] at further behind called some_
      have replaced : run.results.dropLast ++ [result] = start.results ++ [result] := by
        rw [results, List.dropLast_concat]
      dsimp only
      split
      case isTrue succeeds =>
        refine ⟨_, rfl, further.after allowed behind ?_, ends_ok called replaced ?_⟩
        · rintro _ ⟨⟩ fails
          rw [succeeds] at fails
          cases fails
        · simp [stops_iff some_, succeeds]
      case isFalse fails =>
        refine ih ⟨_, _⟩ further ?_ behind called replaced ?_
        · intro answer member
          rcases List.mem_append.mp member with earlier | latest
          · exact failed answer earlier
          · exact ⟨result, List.mem_singleton.mp latest, Bool.not_eq_true _ ▸ fails⟩
        · rw [List.length_append, List.length_singleton]
          omega

theorem turn_ends (executor : PipelineExecutor) (action : PipelineAction) (run : Progress) :
    ∃ turn, turn.action = action ∧ turn.After executor run.calls ∧
      Ends executor run [turn] (executor.turn action run) := by
  have refused (result : ActionResult) (fails : result.success = false)
      (barred : ¬ executor.MayCall action) :
      ∃ turn, turn.action = action ∧ turn.After executor run.calls ∧ Ends executor run [turn]
        (.ok true, { run with results := run.results ++ [result] }) := by
    refine ⟨⟨action, [], some result⟩, rfl, ⟨iff_of_false (fun some_ => some_ rfl) barred, nofun, nofun,
      Nat.zero_le _, nofun, fun _ => ⟨result, rfl, fails⟩, nofun⟩, ?_⟩
    exact ends_ok (List.append_nil _).symm rfl (iff_of_true rfl fun _ _ => .inl rfl)
  unfold turn
  split
  case isFalse barred => exact refused _ rfl fun allowed => barred allowed.1
  case isTrue permitted =>
    split
    case isFalse missing => exact refused _ rfl fun allowed => missing allowed.2
    case isTrue registered =>
      have asked := asked_first executor action run.calls
      have allowed : executor.MayCall action := ⟨permitted, registered⟩
      dsimp only
      cases given : executor.answer run.calls action with
      | error error =>
        rw [given] at asked
        exact ⟨_, rfl, asked.after allowed rfl nofun, ends_error rfl given⟩
      | ok result =>
        rw [given] at asked
        have some_ := List.cons_ne_nil (Except.ok result : Except PyError ActionResult) []
        dsimp only
        split
        case isTrue succeeds =>
          refine ⟨_, rfl, asked.after allowed rfl ?_, ends_ok rfl rfl ?_⟩
          · rintro _ ⟨⟩ fails
            rw [succeeds] at fails
            cases fails
          · simp [stops_iff some_, succeeds]
        case isFalse fails =>
          unfold handleFailure
          cases strategy : action.onFailure with
          | retry =>
            rw [if_pos registered]
            refine retryLoop_ends ⟨_, _⟩ strategy allowed asked ?_ rfl rfl rfl _ rfl
            exact fun answer member => ⟨result, List.mem_singleton.mp member, Bool.not_eq_true _ ▸ fails⟩
          | _ =>
            refine ⟨_, rfl, asked.after allowed rfl ?_, ends_ok rfl rfl ?_⟩
            · intro _ _ _ other
              rw [strategy] at other
              cases other
            · simp [stops_iff some_, fails, strategy]

/-- The turns of a run, by induction on the actions. -/
theorem turns_told (executor : PipelineExecutor) (actions : List PipelineAction) (run : Progress) :
    ∃ told, Told executor run.calls actions told ∧
      Ends executor run told (executor.turns actions run) := by
  induction actions generalizing run with
  | nil =>
    refine ⟨[], ⟨List.nil_prefix, fun _ => rfl, .nil, ?_⟩, (List.append_nil _).symm, ?_, nofun⟩
    · rintro (_ | _) _ _ ⟨⟩
    · rintro _ ⟨⟩
      exact ⟨by simp, (List.append_nil _).symm⟩
  | cons action rest ih =>
    rcases turn_ends executor action run with ⟨turn, rfl, goes, ends⟩
    have first : turn.After executor (run.calls ++ callsOf []) := by
      rw [callsOf, List.flatMap_nil, List.append_nil]
      exact goes
    unfold turns
    split
    case h_1 after made =>
      rw [made] at ends
      have ⟨stops, results⟩ := ends.ok false rfl
      have passes : ¬ turn.Stops := by simpa using stops
      have calls : after.calls = run.calls ++ callsOf [turn] := ends.calls
      rcases ih after with ⟨told, isTold, further⟩
      have joined : ∀ others, after.calls ++ callsOf others = run.calls ++ callsOf (turn :: others) := by
        intro others
        rw [calls, List.append_assoc, callsOf, callsOf, ← List.flatMap_append]
        rfl
      refine ⟨turn :: told, ⟨?_, ?_, ?_, ?_⟩, further.calls.trans (joined told), ?_, ?_⟩
      · exact List.cons_prefix_cons.mpr ⟨rfl, isTold.attempted⟩
      · exact fun none => congrArg (List.cons turn.action)
          (isTold.complete fun other member => none other (List.mem_cons_of_mem turn member))
      · exact List.pairwise_cons.mpr ⟨fun _ _ => passes, isTold.goesOn⟩
      · rintro (_ | ⟨head, before⟩) other later split
        · cases split
          exact first
        · rcases List.cons.inj split with ⟨rfl, same⟩
          rw [← joined]
          exact isTold.turns before other later same
      · intro stops ended
        have ⟨same, recorded⟩ := further.ok stops ended
        refine ⟨same.trans (by simp [passes]), recorded.trans ?_⟩
        rw [results, List.append_assoc]
        rfl
      · intro error ended
        have ⟨⟨other, member, halts⟩, raised⟩ := further.error error ended
        exact ⟨⟨other, List.mem_cons_of_mem turn member, halts⟩, raised⟩
    case h_2 goesOn =>
      have halts : turn.Stops := by
        rcases outcome : executor.turn turn.action run with ⟨error | _ | _, after⟩
        · rw [outcome] at ends
          simpa using (ends.error error rfl).1
        · exact (goesOn after outcome).elim
        · rw [outcome] at ends
          simpa using (ends.ok true rfl).1
      refine ⟨[turn], ⟨⟨rest, rfl⟩, ?_, List.pairwise_singleton _ _, ?_⟩, ends⟩
      · exact fun none => absurd halts (none turn (List.mem_singleton_self turn))
      · rintro (_ | ⟨head, before⟩) other later split
        · cases split
          exact first
        · cases before <;> cases split

/-- A run has its turns, whatever the handlers answer; and if none of them raises it has its log, which
reports success if the pipeline is enabled and no turn stopped. -/
theorem execute_told (executor : PipelineExecutor) (pipeline : Pipeline) (clock : Readings) :
    ∃ told, Told executor [] (if pipeline.enabled then pipeline.actions else []) told ∧
      (executor.execute pipeline clock).2 = callsOf told ∧
      (∀ log, (executor.execute pipeline clock).1 = .ok log ->
        Logged (pipeline.enabled = true) told log) ∧
      ((∀ calls action error, executor.answer calls action ≠ .error error) ->
        ∃ log, (executor.execute pipeline clock).1 = .ok log) := by
  unfold execute
  dsimp only
  split
  case isFalse disabled =>
    refine ⟨[], ⟨List.nil_prefix, fun _ => rfl, .nil, ?_⟩, rfl, ?_, fun _ => ⟨_, rfl⟩⟩
    · rintro (_ | _) _ _ ⟨⟩
    · rintro _ ⟨⟩
      exact ⟨rfl, rfl, iff_of_false nofun fun may => disabled may.1⟩
  case isTrue enabled =>
    rcases turns_told executor pipeline.actions {} with ⟨told, isTold, ends⟩
    generalize executor.turns pipeline.actions {} = outcome at ends
    refine ⟨told, isTold, ends.calls, ?_⟩
    rcases outcome with ⟨error | stops, run⟩
    · refine ⟨nofun, fun calm => ?_⟩
      rcases ends.error error rfl with ⟨_, before, action, raises⟩
      exact absurd raises (calm before action error)
    · have ⟨same, recorded⟩ := ends.ok stops rfl
      refine ⟨?_, fun _ => ⟨_, rfl⟩⟩
      rintro _ ⟨⟩
      refine ⟨rfl, recorded, ?_⟩
      simp [enabled, ← Bool.not_eq_true, same]

end PipelineExecutor

/-- No action of a disabled pipeline stops it, and its log reports no success. -/
theorem execute_disabled : ¬ ∃ told : List Turn, ∀ log,
    (PipelineExecutor.execute ⟨fun _ => true, fun _ _ => .ok { success := true }, .admin⟩
      { id := "p1", name := "notify", actions := [], enabled := false } ⟨0, 1, 0, 1⟩).1 = .ok log ->
    Logged True told log := by
  rintro ⟨told, logged⟩
  have log := logged _ rfl
  rw [List.map_eq_nil_iff.mp log.recorded.symm] at log
  exact Bool.false_ne_true (log.success.mpr ⟨trivial, fun _ impossible => nomatch impossible⟩)

end Webhook
end BreadMind
