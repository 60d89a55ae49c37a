import BreadMind.Agent.ToolExecutor
import BreadMind.Execution.Machine
import Mathlib.Logic.Function.Basic

namespace BreadMind
namespace Agent

open Execution
open Function (update update_of_ne update_self)

/-!
# The agent and its approvals

Turns of `handle_message` run beside each other and beside the calls that
approve and deny tools.  In each round of a turn the calls which the model asks
for are checked, those which need an approval are put down as pending, and the
others are run in any order.  An approval runs the recorded call at once.

A message that names a stored credential and an address is not put before the
model: the agent connects to the router itself.

The identifiers of approvals are drawn fresh.  What the hooks make of a message
is the message here, and the answers of the model and of the tools are inputs.
-/

structure CharClasses where
  isWord : Char -> Bool
  isDigit : Char -> Bool

structure AgentConfig where
  classes : CharClasses
  maxTurns : Nat
  -- the shortened hash of the arguments, for the detection of loops
  digest : Json -> String

/-! ## Credentials in a message -/

/-- `re.search`: the first position where the pattern matches. -/
def searchText {Found : Type} (pattern : List Char -> Option Found) : List Char -> Option Found
  | [] => pattern []
  | letter :: rest =>
    match pattern (letter :: rest) with
    | some found => some found
    | none => searchText pattern rest

variable (classes : CharClasses)

/-- `credential_ref:([\w:.@\-]+)`. -/
def credentialPattern (text : List Char) : Option (List Char) :=
  let start := "credential_ref:".toList
  if start.isPrefixOf text then
    let name := (text.drop start.length).takeWhile fun letter =>
      classes.isWord letter || [':', '.', '@', '-'].contains letter
    if name = [] then none else some name
  else none

/-- A run of digits, and that many more after a dot each. -/
def dottedDigits (classes : CharClasses) : Nat -> List Char -> Option (List Char)
  | more, text =>
    let digits := text.takeWhile classes.isDigit
    if digits = [] then none
    else
      match more, text.dropWhile classes.isDigit with
      | 0, _ => some digits
      | more + 1, '.' :: rest =>
        (dottedDigits classes more rest).map fun others => digits ++ '.' :: others
      | _ + 1, _ => none

/-- `(\w+)@`. -/
def userPattern (text : List Char) : Option (List Char) :=
  let name := text.takeWhile classes.isWord
  if name = [] then none
  else
    match text.dropWhile classes.isWord with
    | '@' :: _ => some name
    | _ => none

/-- The arguments with which the agent calls `router_manage` by itself. -/
def credentialShortcut (message : String) (hasRouter : Bool) : Option Json :=
  match searchText (credentialPattern classes) message.toList with
  | none => none
  | some name =>
    if hasRouter then
      (searchText (dottedDigits classes 3) message.toList).map fun host =>
        .obj [("action", .str "connect"), ("host", .str (String.ofList host)),
          ("router_type", .str "openwrt"),
          ("username", .str (((searchText (userPattern classes) message.toList).map
            String.ofList).getD "root")),
          ("password", .str ("credential_ref:" ++ String.ofList name))]
    else none

/-- A call that the agent comes upon: in which turn, in which round of it, and
at which place.  The rounds of the model are counted from one. -/
structure CallRef where
  turn : Nat
  round : Nat
  index : Nat
  deriving DecidableEq

inductive TurnStage where
  | chatting (round : Nat) (recent : List (String × String))
  | executing (round : Nat) (recent : List (String × String)) (waiting : List (CallRef × ToolCall))
  | ended

structure Turn where
  user : String
  channel : String
  stage : TurnStage

structure AgentState where
  guard : SafetyGuard := {}
  approvals : String -> Option PendingApproval := fun _ => none
  turns : Nat -> Option Turn := fun _ => none

/-- A call of the model, with the identifier drawn for it and the time of its check. -/
structure AskedCall where
  call : ToolCall
  approvalId : String
  now : Int

/-- `cut` tells after how many calls the first phase raises, if it does. -/
inductive AgentInput where
  | message (turn : Nat) (user channel text : String) (hasRouter raises : Bool)
  | answered (turn : Nat) (calls : List AskedCall) (cut : Option Nat)
  | execute (turn : Nat) (ref : CallRef)
  | collected (turn : Nat)
  | finished (turn : Nat)
  | approve (approvalId : String) (audited : Bool)
  | deny (approvalId : String)
  | reconfigure (change : GuardChange)

inductive Cause where
  | call (ref : CallRef)
  | approval (approvalId : String)

inductive AgentEffect where
  | checked (ref : CallRef) (action user channel : String) (verdict : SafetyResult)
  | requested (approvalId : String) (ref : CallRef) (tool : String) (arguments : Json)
      (user channel : String)
  | approved (approvalId : String)
  | denied (approvalId : String)
  | ran (cause : Cause) (tool : String) (arguments : Json) (user channel : String)

def AgentState.setTurn (state : AgentState) (turn : Nat) (value : Turn) : AgentState :=
  { state with turns := update state.turns turn (some value) }

def AgentState.setApproval (state : AgentState) (approvalId : String) (value : PendingApproval) :
    AgentState :=
  { state with approvals := update state.approvals approvalId (some value) }

/-- `handle_message`, up to the first call of the model. -/
def beginTurn (config : AgentConfig) (state : AgentState) (turn : Nat)
    (user channel text : String) (hasRouter raises : Bool) : AgentState × List AgentEffect :=
  match credentialShortcut config.classes text hasRouter with
  | some arguments =>
    (state.setTurn turn ⟨user, channel, if raises then .chatting 1 [] else .ended⟩,
      [.ran (.call ⟨turn, 0, 0⟩) "router_manage" arguments user channel])
  | none => (state.setTurn turn ⟨user, channel, .chatting 1 []⟩, [])

/-- What one call of the first phase does: the state, the effects, and the
call itself if it may run. -/
def checkAsked (user channel : String) (state : AgentState) (ref : CallRef) (asked : AskedCall) :
    AgentState × List AgentEffect × List (CallRef × ToolCall) :=
  let outcome := checkOutcome user channel state.guard asked.call.name asked.now
  let checked := AgentEffect.checked ref asked.call.name user channel
    (state.guard.check asked.call.name user)
  let next := { state with guard := outcome.2 }
  match outcome.1 with
  | .passes => (next, [checked], [(ref, asked.call)])
  | .awaiting =>
    (next.setApproval asked.approvalId
        { tool := asked.call.name, args := asked.call.arguments, user := user
          channel := channel, status := "pending" },
      [checked, .requested asked.approvalId ref asked.call.name asked.call.arguments user channel],
      [])
  | _ => (next, [checked], [])

def checkAllAsked (user channel : String) (turn round : Nat) : Nat -> AgentState ->
    List AskedCall -> AgentState × List AgentEffect × List (CallRef × ToolCall)
  | _, state, [] => (state, [], [])
  | index, state, asked :: rest =>
    let first := checkAsked user channel state ⟨turn, round, index⟩ asked
    let others := checkAllAsked user channel turn round (index + 1) first.1 rest
    (others.1, first.2.1 ++ others.2.1, first.2.2 ++ others.2.2)

def loopThreshold : Nat := 3

def looping (recent : List (String × String)) : Bool :=
  let last := recent.drop (recent.length - loopThreshold)
  decide (loopThreshold ≤ recent.length) && last.all fun entry => some entry == last.head?

def FreshIds (state : AgentState) (calls : List AskedCall) : Prop :=
  (calls.map AskedCall.approvalId).Nodup ∧
    ∀ asked ∈ calls, (state.approvals asked.approvalId).isNone = true

instance (state : AgentState) (calls : List AskedCall) : Decidable (FreshIds state calls) :=
  inferInstanceAs (Decidable (_ ∧ _))

def answerTurn (config : AgentConfig) (state : AgentState) (turn : Nat) (running : Turn)
    (round : Nat) (recent : List (String × String)) (calls : List AskedCall) (cut : Option Nat) :
    AgentState × List AgentEffect :=
  let seen := recent ++ calls.map fun asked => (asked.call.name, config.digest asked.call.arguments)
  if looping seen then (state.setTurn turn { running with stage := .ended }, [])
  else
    match cut with
    | some reached =>
      let checked := checkAllAsked running.user running.channel turn round 0 state
        (calls.take reached)
      (checked.1.setTurn turn { running with stage := .ended }, checked.2.1)
    | none =>
      let checked := checkAllAsked running.user running.channel turn round 0 state calls
      (checked.1.setTurn turn { running with stage := .executing round seen checked.2.2 },
        checked.2.1)

/-- `approve_tool`; the recorded call runs unless the audit of the approval raises. -/
def approveTool (state : AgentState) (approvalId : String) (audited : Bool) :
    AgentState × List AgentEffect :=
  match state.approvals approvalId with
  | none => (state, [])
  | some approval =>
    if approval.status = "pending" then
      (state.setApproval approvalId { approval with status := "approved" }, .approved approvalId ::
          if audited then
            [.ran (.approval approvalId) approval.tool approval.args approval.user approval.channel]
          else [])
    else (state, [])

def denyTool (state : AgentState) (approvalId : String) : AgentState × List AgentEffect :=
  match state.approvals approvalId with
  | none => (state, [])
  | some approval =>
    (state.setApproval approvalId { approval with status := "denied" }, [.denied approvalId])

def agentMove (config : AgentConfig) (state : AgentState) :
    AgentInput -> AgentState × List AgentEffect
  | .message turn user channel text hasRouter raises =>
    match state.turns turn with
    | none => beginTurn config state turn user channel text hasRouter raises
    | some _ => (state, [])
  | .answered turn calls cut =>
    match state.turns turn with
    | some ⟨user, channel, .chatting round recent⟩ =>
      if round ≤ config.maxTurns ∧ FreshIds state calls then
        answerTurn config state turn ⟨user, channel, .chatting round recent⟩ round recent calls cut
      else (state, [])
    | _ => (state, [])
  | .execute turn ref =>
    match state.turns turn with
    | some ⟨user, channel, .executing round recent waiting⟩ =>
      match waiting.find? fun entry => entry.1 = ref with
      | some entry =>
        (state.setTurn turn ⟨user, channel, .executing round recent
            (waiting.filter fun other => other.1 ≠ ref)⟩,
          [.ran (.call ref) entry.2.name entry.2.arguments user channel])
      | none => (state, [])
    | _ => (state, [])
  | .collected turn =>
    match state.turns turn with
    | some ⟨user, channel, .executing round recent []⟩ =>
      (state.setTurn turn ⟨user, channel, .chatting (round + 1) recent⟩, [])
    | _ => (state, [])
  | .finished turn =>
    match state.turns turn with
    | some running => (state.setTurn turn { running with stage := .ended }, [])
    | none => (state, [])
  | .approve approvalId audited => approveTool state approvalId audited
  | .deny approvalId => denyTool state approvalId
  | .reconfigure change => ({ state with guard := state.guard.change change }, [])

def agentMachine (config : AgentConfig) : Machine AgentState AgentInput where
  initial := {}
  step := fun state input => (agentMove config state input).1

def agentEffects (config : AgentConfig) (inputs : List AgentInput) : List AgentEffect :=
  (agentMachine config).outputs (fun state input => (agentMove config state input).2) inputs

def AgentEffect.ranBy (approvalId : String) : AgentEffect -> Prop
  | ran (.approval other) .. => other = approvalId
  | _ => False

/-- A tool runs because its call has been allowed, or because its call needed
an approval, the identifier made for it was approved, and was neither denied
nor used before. -/
def Sanctioned (past : List AgentEffect) : AgentEffect -> Prop
  | .ran (.call ref) tool _ user channel => .checked ref tool user channel .allow ∈ past
  | .ran (.approval approvalId) tool arguments user channel =>
    (∃ ref, .checked ref tool user channel .requireApproval ∈ past ∧
      .requested approvalId ref tool arguments user channel ∈ past) ∧
    .approved approvalId ∈ past ∧ .denied approvalId ∉ past ∧
    ∀ effect ∈ past, Not (effect.ranBy approvalId)
  | _ => True

def ToolsSanctioned (effects : List AgentEffect) : Prop :=
  ∀ before effect after, effects = before ++ effect :: after -> Sanctioned before effect

def NoShortcut (config : AgentConfig) (state : AgentState) (input : AgentInput) : Prop :=
  ∀ turn user channel text hasRouter raises,
    input = .message turn user channel text hasRouter raises -> state.turns turn = none ->
      credentialShortcut config.classes text hasRouter = none

/-! ## The first phase -/

variable {user channel : String}

theorem checkOutcome_passes {guard : SafetyGuard} {name : String} {now : Int}
    (passes : (checkOutcome user channel guard name now).1 = .passes) :
    guard.check name user = .allow := by
  unfold checkOutcome at passes
  split at passes
  case h_1 => cases passes
  case h_2 => cases passes
  case h_3 allowed => exact allowed

theorem checkOutcome_awaiting {guard : SafetyGuard} {name : String}
    {now : Int} (awaiting : (checkOutcome user channel guard name now).1 = .awaiting) :
    guard.check name user = .requireApproval := by
  unfold checkOutcome at awaiting
  split at awaiting
  case h_1 => cases awaiting
  case h_2 needed => exact needed
  case h_3 =>
    split at awaiting
    · dsimp only at awaiting
      split at awaiting <;> cases awaiting
    · cases awaiting

def AgentEffect.IsCheck (round : Nat) : AgentEffect -> Prop
  | checked ref .. => ref.round = round
  | requested .. => True
  | _ => False

def Recorded (effects : List AgentEffect) (approvalId : String) (approval : PendingApproval) : Prop :=
  ∃ ref,
    .checked ref approval.tool approval.user approval.channel .requireApproval ∈ effects ∧
      .requested approvalId ref approval.tool approval.args approval.user approval.channel ∈ effects

variable {effects : List AgentEffect} {approvalId : String}

theorem Recorded.mono {more : List AgentEffect}
    {approval : PendingApproval} (recorded : Recorded effects approvalId approval)
    (kept : ∀ effect ∈ effects, effect ∈ more) : Recorded more approvalId approval := by
  rcases recorded with ⟨ref, checked, requested⟩
  exact ⟨ref, kept _ checked, kept _ requested⟩

structure ChecksMade (user channel : String) (round : Nat) (before : AgentState)
    (calls : List AskedCall) (after : AgentState) (effects : List AgentEffect)
    (waiting : List (CallRef × ToolCall)) : Prop where
  turns : after.turns = before.turns
  checks : ∀ effect ∈ effects, effect.IsCheck round
  allowed : ∀ entry ∈ waiting,
    .checked entry.1 entry.2.name user channel .allow ∈ effects
  approvals : ∀ approvalId, after.approvals approvalId = before.approvals approvalId ∨
    (∃ approval, after.approvals approvalId = some approval ∧
      approval.status = "pending" ∧ Recorded effects approvalId approval ∧
      approvalId ∈ calls.map AskedCall.approvalId)

theorem checkAsked_made (user channel : String) (state : AgentState) (ref : CallRef)
    (asked : AskedCall) :
    ChecksMade user channel ref.round state [asked] (checkAsked user channel state ref asked).1
      (checkAsked user channel state ref asked).2.1
      (checkAsked user channel state ref asked).2.2 := by
  unfold checkAsked
  dsimp only
  split
  case h_1 passes =>
    refine ⟨rfl, ?_, ?_, fun _ => .inl rfl⟩
    · intro effect member
      rw [List.mem_singleton.mp member]
      rfl
    · intro entry member
      rw [List.mem_singleton.mp member, checkOutcome_passes passes]
      exact List.mem_cons_self
  case h_2 awaiting =>
    refine ⟨rfl, ?_, ?_, ?_⟩
    · intro effect member
      rcases List.mem_cons.mp member with same | later
      · rw [same]
        rfl
      · rw [List.mem_singleton.mp later]
        trivial
    · intro entry member
      cases member
    · intro approvalId
      by_cases same : approvalId = asked.approvalId
      · subst same
        refine .inr ⟨_, update_self _ _ _, rfl, ⟨ref, ?_, ?_⟩, List.mem_cons_self⟩
        · rw [checkOutcome_awaiting awaiting]
          exact List.mem_cons_self
        · exact List.mem_cons_of_mem _ List.mem_cons_self
      · exact .inl (update_of_ne same _ _)
  case h_3 =>
    refine ⟨rfl, ?_, ?_, fun _ => .inl rfl⟩
    · intro effect member
      rw [List.mem_singleton.mp member]
      rfl
    · intro entry member
      cases member

theorem checkAllAsked_made (user channel : String) (turn round index : Nat) (state : AgentState)
    (calls : List AskedCall) : ChecksMade user channel round state calls
      (checkAllAsked user channel turn round index state calls).1
      (checkAllAsked user channel turn round index state calls).2.1
      (checkAllAsked user channel turn round index state calls).2.2 := by
  induction calls generalizing index state with
  | nil =>
    refine ⟨rfl, ?_, ?_, fun _ => .inl rfl⟩
    · intro effect member
      cases member
    · intro entry member
      cases member
  | cons asked rest ih =>
    have first := checkAsked_made user channel state ⟨turn, round, index⟩ asked
    rw [checkAllAsked]
    dsimp only
    generalize checkAsked user channel state ⟨turn, round, index⟩ asked = made at first ⊢
    have others := ih (index + 1) made.1
    generalize checkAllAsked user channel turn round (index + 1) made.1 rest = later at others ⊢
    refine ⟨others.turns.trans first.turns, ?_, ?_, ?_⟩
    · intro effect member
      rcases List.mem_append.mp member with early | late
      · exact first.checks effect early
      · exact others.checks effect late
    · intro entry member
      rcases List.mem_append.mp member with early | late
      · exact List.mem_append_left _ (first.allowed entry early)
      · exact List.mem_append_right _ (others.allowed entry late)
    · intro approvalId
      rcases others.approvals approvalId with same | ⟨approval, here, pending, recorded, named⟩
      · rcases first.approvals approvalId with before | ⟨approval, here, pending, recorded, named⟩
        · exact .inl (same.trans before)
        · refine .inr ⟨approval, same.trans here, pending, ?_, ?_⟩
          · exact recorded.mono fun _ member => List.mem_append_left _ member
          · rw [List.map_cons, List.mem_cons]
            exact .inl (List.mem_singleton.mp named)
      · refine .inr ⟨approval, here, pending, ?_, ?_⟩
        · exact recorded.mono fun _ member => List.mem_append_right _ member
        · exact List.mem_cons_of_mem _ named

def StageSound (past : List AgentEffect) (user channel : String) : TurnStage -> Prop
  | .chatting round _ => 1 ≤ round
  | .executing round _ waiting => 1 ≤ round ∧ ∀ entry ∈ waiting,
      .checked entry.1 entry.2.name user channel .allow ∈ past
  | .ended => True

variable {past : List AgentEffect}

theorem StageSound.mono {more : List AgentEffect} {stage : TurnStage}
    (sound : StageSound past user channel stage)
    (kept : ∀ effect ∈ past, effect ∈ more) : StageSound more user channel stage := by
  cases stage with
  | chatting round recent => exact sound
  | executing round recent waiting =>
    exact ⟨sound.1, fun entry member => kept _ (sound.2 entry member)⟩
  | ended => trivial

def Unused (past : List AgentEffect) (approvalId : String) : Prop :=
  .denied approvalId ∉ past ∧ ∀ effect ∈ past, Not (effect.ranBy approvalId)

structure Accounted (state : AgentState) (past : List AgentEffect) : Prop where
  rounds : ∀ ref action user channel verdict,
    .checked ref action user channel verdict ∈ past -> 1 ≤ ref.round
  stages : ∀ turn running, state.turns turn = some running ->
    StageSound past running.user running.channel running.stage
  recorded : ∀ approvalId approval, state.approvals approvalId = some approval ->
    Recorded past approvalId approval
  unused : ∀ approvalId, (∀ approval, state.approvals approvalId = some approval ->
    approval.status = "pending") -> Unused past approvalId

def AgentEffect.Plain : AgentEffect -> Prop
  | checked ref .. => 1 ≤ ref.round
  | denied _ => False
  | ran (.approval _) .. => False
  | _ => True

theorem Unused.append (unused : Unused past approvalId) (plain : ∀ effect ∈ effects, effect.Plain) :
    Unused (past ++ effects) approvalId := by
  constructor
  · intro member
    rcases List.mem_append.mp member with old | new
    · exact unused.1 old
    · exact plain _ new
  · intro effect member used
    rcases List.mem_append.mp member with old | new
    · exact unused.2 effect old used
    · have here := plain effect new
      cases effect with
      | ran cause tool arguments user channel =>
        cases cause with
        | call ref => exact used
        | approval other => exact here
      | _ => exact used

theorem rounds_append (rounds : ∀ ref action user channel verdict,
      .checked ref action user channel verdict ∈ past -> 1 ≤ ref.round)
    (plain : ∀ effect ∈ effects, effect.Plain) (ref : CallRef)
    (action user channel : String) (verdict : SafetyResult)
    (member : .checked ref action user channel verdict ∈ past ++ effects) : 1 ≤ ref.round := by
  rcases List.mem_append.mp member with old | new
  · exact rounds ref action user channel verdict old
  · exact plain _ new

variable {state : AgentState} {turn : Nat} {running : Turn}

theorem accounted_setTurn (accounted : Accounted state past)
    (plain : ∀ effect ∈ effects, effect.Plain)
    (sound : StageSound (past ++ effects) running.user running.channel running.stage) :
    Accounted (state.setTurn turn running) (past ++ effects) where
  rounds := rounds_append accounted.rounds plain
  stages := by
    intro other moving here
    by_cases same : other = turn
    · subst same
      cases (update_self _ _ _).symm.trans here
      exact sound
    · have before := (update_of_ne same _ _).symm.trans here
      exact (accounted.stages other moving before).mono fun _ member => List.mem_append_left _ member
  recorded := fun approvalId approval here =>
    (accounted.recorded approvalId approval here).mono fun _ member => List.mem_append_left _ member
  unused := fun approvalId pending => (accounted.unused approvalId pending).append plain

variable {round : Nat} {calls : List AskedCall}

theorem accounted_checks {after : AgentState}
    {waiting : List (CallRef × ToolCall)} (accounted : Accounted state past)
    (positive : 1 ≤ round) (fresh : ∀ asked ∈ calls,
      (state.approvals asked.approvalId).isNone = true)
    (made : ChecksMade user channel round state calls after effects waiting) :
    Accounted after (past ++ effects) := by
  have plain : ∀ effect ∈ effects, effect.Plain := by
    intro effect member
    have check := made.checks effect member
    cases effect with
    | checked ref =>
      have same : ref.round = round := check
      exact positive.trans_eq same.symm
    | requested => trivial
    | _ => cases check
  constructor
  · exact rounds_append accounted.rounds plain
  · intro turn running here
    rw [made.turns] at here
    exact (accounted.stages turn running here).mono fun _ member => List.mem_append_left _ member
  · intro approvalId approval here
    rcases made.approvals approvalId with same | ⟨_, there, _, recorded, _⟩
    · rw [same] at here
      exact (accounted.recorded approvalId approval here).mono fun _ member =>
        List.mem_append_left _ member
    · rw [there] at here
      cases here
      exact recorded.mono fun _ member => List.mem_append_right _ member
  · intro approvalId pending
    rcases made.approvals approvalId with same | ⟨_, there, _, _, named⟩
    · rw [same] at pending
      exact (accounted.unused approvalId pending).append plain
    · refine (accounted.unused approvalId ?_).append plain
      rcases List.mem_map.mp named with ⟨asked, member, same⟩
      have none_ := Option.isNone_iff_eq_none.mp (fresh asked member)
      intro approval here
      rw [← same, none_] at here
      cases here

theorem plain_nil : ∀ effect : AgentEffect, effect ∈ [] -> effect.Plain := by
  intro effect member
  cases member

def AgentEffect.Decides (approvalId : String) : AgentEffect -> Prop
  | approved other => other = approvalId
  | denied other => other = approvalId
  | ran (.approval other) .. => other = approvalId
  | _ => False

theorem accounted_decide
    {status : String} {approval : PendingApproval} (accounted : Accounted state past)
    (found : state.approvals approvalId = some approval) (closed : status ≠ "pending")
    (decides : ∀ effect ∈ effects, effect.Decides approvalId) :
    Accounted (state.setApproval approvalId { approval with status := status })
      (past ++ effects) := by
  have kept : ∀ effect ∈ past, effect ∈ past ++ effects :=
    fun effect member => List.mem_append_left _ member
  constructor
  · intro ref action user channel verdict member
    rcases List.mem_append.mp member with old | new
    · exact accounted.rounds ref action user channel verdict old
    · exact (decides _ new).elim
  · intro turn running here
    exact (accounted.stages turn running here).mono kept
  · intro other recorded here
    by_cases same : other = approvalId
    · subst same
      cases (update_self _ _ _).symm.trans here
      exact (accounted.recorded other approval found).mono kept
    · exact (accounted.recorded other recorded ((update_of_ne same _ _).symm.trans here)).mono kept
  · intro other pending
    by_cases same : other = approvalId
    · subst same
      exact absurd (pending _ (update_self _ _ _)) closed
    · have before := accounted.unused other fun held here =>
        pending held ((update_of_ne same _ _).trans here)
      constructor
      · intro member
        rcases List.mem_append.mp member with old | new
        · exact before.1 old
        · exact same (decides _ new)
      · intro effect member used
        rcases List.mem_append.mp member with old | new
        · exact before.2 effect old used
        · have here := decides effect new
          cases effect with
          | ran cause tool arguments user channel =>
            cases cause with
            | call ref => exact used
            | approval named => exact same (used.symm.trans here)
          | _ => exact used

theorem accounted_approve
    (accounted : Accounted state past) (approvalId : String) (audited : Bool) :
    Accounted (approveTool state approvalId audited).1
      (past ++ (approveTool state approvalId audited).2) := by
  unfold approveTool
  split
  case h_1 => exact (List.append_nil past).symm ▸ accounted
  case h_2 approval found =>
    split
    case isFalse => exact (List.append_nil past).symm ▸ accounted
    case isTrue pending =>
      refine accounted_decide accounted found (by decide) ?_
      intro effect member
      rcases List.mem_cons.mp member with same | later
      · rw [same]
        rfl
      · cases audited with
        | true =>
          rw [List.mem_singleton.mp later]
          rfl
        | false => cases later

theorem accounted_deny (accounted : Accounted state past) (approvalId : String) :
    Accounted (denyTool state approvalId).1 (past ++ (denyTool state approvalId).2) := by
  unfold denyTool
  split
  case h_1 => exact (List.append_nil past).symm ▸ accounted
  case h_2 approval found =>
    refine accounted_decide accounted found (by decide) ?_
    intro effect member
    rw [List.mem_singleton.mp member]
    rfl

theorem accounted_answer {config : AgentConfig} {recent : List (String × String)}
    {cut : Option Nat} (accounted : Accounted state past)
    (positive : 1 ≤ round) (fresh : FreshIds state calls) :
    Accounted (answerTurn config state turn running round recent calls cut).1
      (past ++ (answerTurn config state turn running round recent calls cut).2) := by
  unfold answerTurn
  dsimp only
  split
  · exact accounted_setTurn accounted plain_nil trivial
  · cases cut with
    | some reached =>
      have made := checkAllAsked_made running.user running.channel turn round 0 state
        (calls.take reached)
      have checked := accounted_checks accounted positive
        (fun asked member => fresh.2 asked (List.mem_of_mem_take member)) made
      refine (List.append_nil (past ++ _)) ▸ accounted_setTurn checked plain_nil ?_
      trivial
    | none =>
      have made := checkAllAsked_made running.user running.channel turn round 0 state calls
      have checked := accounted_checks accounted positive fresh.2 made
      refine (List.append_nil (past ++ _)) ▸ accounted_setTurn checked plain_nil ?_
      refine ⟨positive, ?_⟩
      intro entry member
      exact List.mem_append_left _ (List.mem_append_right _ (made.allowed entry member))

theorem accounted_move {config : AgentConfig}
    (accounted : Accounted state past) (input : AgentInput) :
    Accounted (agentMove config state input).1 (past ++ (agentMove config state input).2) := by
  have idle : Accounted state (past ++ []) := (List.append_nil past).symm ▸ accounted
  cases input with
  | message turn user channel text hasRouter raises =>
    unfold agentMove
    dsimp only
    split
    case h_2 => exact idle
    case h_1 =>
      unfold beginTurn
      split
      case h_1 arguments =>
        refine accounted_setTurn accounted ?_ ?_
        · intro effect member
          rw [List.mem_singleton.mp member]
          trivial
        · cases raises with
          | true => exact Nat.le_refl 1
          | false => trivial
      case h_2 => exact accounted_setTurn accounted plain_nil (Nat.le_refl 1)
  | answered turn calls cut =>
    unfold agentMove
    dsimp only
    split
    case h_1 user channel round recent here =>
      split
      case isTrue able =>
        exact accounted_answer accounted (accounted.stages turn _ here) able.2
      case isFalse => exact idle
    case h_2 => exact idle
  | execute turn ref =>
    unfold agentMove
    dsimp only
    split
    case h_1 user channel round recent waiting here =>
      split
      case h_1 entry found =>
        have sound := accounted.stages turn _ here
        refine accounted_setTurn accounted ?_ ⟨sound.1, ?_⟩
        · intro effect member
          rw [List.mem_singleton.mp member]
          trivial
        · intro other member
          exact List.mem_append_left _ (sound.2 other (List.mem_filter.mp member).1)
      case h_2 => exact idle
    case h_2 => exact idle
  | collected turn =>
    unfold agentMove
    dsimp only
    split
    case h_1 user channel round recent here =>
      have sound := accounted.stages turn _ here
      exact accounted_setTurn accounted plain_nil (Nat.le_succ_of_le sound.1)
    case h_2 => exact idle
  | finished turn =>
    unfold agentMove
    dsimp only
    split
    case h_1 => exact accounted_setTurn accounted plain_nil trivial
    case h_2 => exact idle
  | approve approvalId audited => exact accounted_approve accounted approvalId audited
  | deny approvalId => exact accounted_deny accounted approvalId
  | reconfigure change => exact ⟨idle.rounds, idle.stages, idle.recorded, idle.unused⟩

/-! ## Which steps are sanctioned -/

theorem sanctioned_singleton {only : AgentEffect}
    (sanctioned : Sanctioned past only) (before : List AgentEffect) (effect : AgentEffect)
    (after : List AgentEffect) (split : [only] = before ++ effect :: after) :
    Sanctioned (past ++ before) effect := by
  cases before with
  | nil =>
    cases split
    exact (List.append_nil past).symm ▸ sanctioned
  | cons head tail =>
    injection split with _ rest
    cases tail <;> cases rest

theorem sanctioned_of_isCheck {effect : AgentEffect}
    (check : effect.IsCheck round) : Sanctioned past effect := by
  cases effect with
  | ran => exact check.elim
  | _ => trivial

theorem sanctioned_answer {config : AgentConfig}
    {recent : List (String × String)} {cut : Option Nat} {effect : AgentEffect}
    (member : effect ∈ (answerTurn config state turn running round recent calls cut).2)
    (past : List AgentEffect) : Sanctioned past effect := by
  unfold answerTurn at member
  dsimp only at member
  split at member
  · cases member
  · cases cut with
    | some reached =>
      exact sanctioned_of_isCheck ((checkAllAsked_made running.user running.channel turn round 0
        state (calls.take reached)).checks effect member)
    | none =>
      exact sanctioned_of_isCheck ((checkAllAsked_made running.user running.channel turn round 0
        state calls).checks effect member)

theorem sanctioned_approve (accounted : Accounted state past) {audited : Bool}
    (before : List AgentEffect) (effect : AgentEffect) (after : List AgentEffect)
    (split : (approveTool state approvalId audited).2 = before ++ effect :: after) :
    Sanctioned (past ++ before) effect := by
  unfold approveTool at split
  split at split
  case h_1 => cases before <;> cases split
  case h_2 approval found =>
    split at split
    case isFalse => cases before <;> cases split
    case isTrue pending =>
      have unused := accounted.unused approvalId fun held here => by
        rw [found] at here
        cases here
        exact pending
      rcases accounted.recorded approvalId approval found with ⟨ref, checked, requested⟩
      have approved : Sanctioned (past ++ [.approved approvalId]) (.ran (.approval approvalId)
          approval.tool approval.args approval.user approval.channel) := by
        refine ⟨⟨ref, List.mem_append_left _ checked, List.mem_append_left _ requested⟩,
          List.mem_append_right _ List.mem_cons_self, ?_, ?_⟩
        · intro member
          rcases List.mem_append.mp member with old | new
          · exact unused.1 old
          · cases List.mem_singleton.mp new
        · intro other member used
          rcases List.mem_append.mp member with old | new
          · exact unused.2 other old used
          · rw [List.mem_singleton.mp new] at used
            exact used
      cases before with
      | nil =>
        injection split with same _
        subst same
        trivial
      | cons head tail =>
        injection split with same rest
        subst same
        cases audited with
        | false => cases tail <;> cases rest
        | true =>
          have shown := sanctioned_singleton approved tail effect after rest
          rw [List.append_assoc, List.singleton_append] at shown
          exact shown

theorem sanctioned_move {config : AgentConfig}
    (accounted : Accounted state past) {input : AgentInput}
    (guarded : NoShortcut config state input) (before : List AgentEffect) (effect : AgentEffect)
    (after : List AgentEffect)
    (split : (agentMove config state input).2 = before ++ effect :: after) :
    Sanctioned (past ++ before) effect := by
  have nothing : ∀ {rest : List AgentEffect}, [] ≠ before ++ effect :: rest := by
    intro rest impossible
    cases before <;> cases impossible
  cases input with
  | message turn user channel text hasRouter raises =>
    unfold agentMove at split
    dsimp only at split
    split at split
    case h_2 => exact (nothing split).elim
    case h_1 fresh =>
      unfold beginTurn at split
      rw [guarded turn user channel text hasRouter raises rfl fresh] at split
      exact (nothing split).elim
  | answered turn calls cut =>
    unfold agentMove at split
    dsimp only at split
    split at split
    case h_1 =>
      split at split
      case isTrue =>
        have member : effect ∈ before ++ effect :: after :=
          List.mem_append_right _ List.mem_cons_self
        rw [← split] at member
        exact sanctioned_answer member _
      case isFalse => exact (nothing split).elim
    case h_2 => exact (nothing split).elim
  | execute turn ref =>
    unfold agentMove at split
    dsimp only at split
    split at split
    case h_1 user channel round recent waiting here =>
      split at split
      case h_1 entry found =>
        have sound := accounted.stages turn _ here
        have met := List.find?_some found
        have named : entry.1 = ref := of_decide_eq_true met
        have allowed := sound.2 entry (List.mem_of_find?_eq_some found)
        rw [named] at allowed
        have sanctioned : Sanctioned past (.ran (.call ref) entry.2.name entry.2.arguments
            user channel) := allowed
        exact sanctioned_singleton sanctioned before effect after split
      case h_2 => exact (nothing split).elim
    case h_2 => exact (nothing split).elim
  | collected turn | finished turn =>
    unfold agentMove at split
    dsimp only at split
    split at split
    · exact (nothing split).elim
    · exact (nothing split).elim
  | approve approvalId audited => exact sanctioned_approve accounted before effect after split
  | deny approvalId =>
    have trivially : ∀ only : AgentEffect, only = .denied approvalId ->
        Sanctioned past only := by
      rintro only rfl
      trivial
    unfold agentMove denyTool at split
    dsimp only at split
    split at split
    · exact (nothing split).elim
    · exact sanctioned_singleton (trivially _ rfl) before effect after split
  | reconfigure change => exact (nothing split).elim

theorem unsanctioned_shortcut {config : AgentConfig} {state : AgentState} {past : List AgentEffect}
    (accounted : Accounted state past) {turn : Nat} {user channel text : String}
    {hasRouter raises : Bool} {arguments : Json} (fresh : state.turns turn = none)
    (shortcut : credentialShortcut config.classes text hasRouter = some arguments)
    (sanctioned : ∀ before effect after,
      (agentMove config state (.message turn user channel text hasRouter raises)).2 =
        before ++ effect :: after -> Sanctioned (past ++ before) effect) : False := by
  have ran : (agentMove config state (.message turn user channel text hasRouter raises)).2 =
      [.ran (.call ⟨turn, 0, 0⟩) "router_manage" arguments user channel] := by
    unfold agentMove beginTurn
    dsimp only
    rw [fresh]
    dsimp only
    rw [shortcut]
  have checked := sanctioned [] _ [] ran
  rw [List.append_nil] at checked
  have positive : 1 ≤ 0 := accounted.rounds _ _ _ _ _ checked
  exact absurd positive (by decide)

variable (config : AgentConfig)

theorem agentEffects_append (inputs : List AgentInput) (input : AgentInput) :
    agentEffects config (inputs ++ [input]) = agentEffects config inputs ++
      (agentMove config ((agentMachine config).after inputs) input).2 :=
  (agentMachine config).outputs_append_singleton _ inputs input

theorem accounted_after (inputs : List AgentInput) :
    Accounted ((agentMachine config).after inputs) (agentEffects config inputs) := by
  induction inputs using List.reverseRecOn with
  | nil =>
    constructor
    · intro ref action user channel verdict member
      cases member
    · intro turn running here
      cases here
    · intro approvalId approval here
      cases here
    · intro approvalId _
      constructor
      · intro member
        cases member
      · intro effect member
        cases member
  | append_singleton earlier input ih =>
    rw [Machine.after_append_singleton, agentEffects_append]
    exact accounted_move ih input

/-- In every run: tools run as sanctioned exactly if no message makes the agent
connect by itself. -/
theorem toolsSanctioned_iff (inputs : List AgentInput) :
    ToolsSanctioned (agentEffects config inputs) <->
      (agentMachine config).EveryStep (NoShortcut config) inputs := by
  induction inputs using List.reverseRecOn with
  | nil =>
    refine iff_of_true ?_ ((agentMachine config).everyStep_nil _)
    intro before effect after split
    cases before <;> cases split
  | append_singleton earlier input ih =>
    have accounted := accounted_after config earlier
    rw [Machine.everyStep_append_singleton, agentEffects_append, ← ih]
    constructor
    · intro sanctioned
      refine ⟨?_, ?_⟩
      · intro before effect after split
        refine sanctioned before effect
          (after ++ (agentMove config ((agentMachine config).after earlier) input).2) ?_
        rw [split, List.append_assoc, List.cons_append]
      · rintro turn user channel text hasRouter raises rfl fresh
        by_contra taken
        rcases Option.ne_none_iff_exists'.mp taken with ⟨arguments, shortcut⟩
        refine @unsanctioned_shortcut config _ _ accounted turn user channel text hasRouter raises
          arguments fresh shortcut ?_
        intro before effect after split
        refine sanctioned (agentEffects config earlier ++ before) effect after ?_
        rw [split, List.append_assoc]
    · rintro ⟨sanctioned, guarded⟩
      exact forall_split_append sanctioned (sanctioned_move accounted guarded)

def asciiClasses : CharClasses where
  isWord := fun letter => letter.isAlphanum || letter == '_'
  isDigit := Char.isDigit

def asciiConfig : AgentConfig where
  classes := asciiClasses
  maxTurns := 10
  digest := fun _ => ""

def connectionMessage : String := "connect root@10.0.0.1 with credential_ref:r1"

/-- The router tool is forbidden, and a message with a stored credential and an
address makes the agent use it. -/
def forbiddenConnection : List AgentInput :=
  [.reconfigure (.blacklist [("network", ["router_manage"])])] ++
    [.message 0 "U1" "C1" connectionMessage true false]

theorem forbiddenConnection_unsanctioned :
    Not (ToolsSanctioned (agentEffects asciiConfig forbiddenConnection)) := by
  intro sanctioned
  have taken : (credentialShortcut asciiClasses connectionMessage true).isSome = true := by
    decide +kernel
  rcases Option.isSome_iff_exists.mp taken with ⟨arguments, shortcut⟩
  have accounted := accounted_after asciiConfig
    [.reconfigure (.blacklist [("network", ["router_manage"])])]
  refine @unsanctioned_shortcut asciiConfig _ _ accounted 0 "U1" "C1" connectionMessage true false
    arguments rfl shortcut ?_
  intro before effect after split
  refine sanctioned (_ ++ before) effect after ?_
  unfold forbiddenConnection
  rw [agentEffects_append, split, List.append_assoc]

end Agent
end BreadMind
