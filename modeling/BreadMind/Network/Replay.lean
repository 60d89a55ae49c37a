import BreadMind.Execution.Machine
import BreadMind.Network.Commander

namespace BreadMind
namespace Network

open Execution

/-!
# Frames that are delivered again

A companion and the commander take frames from the network, where somebody may
have recorded them and may deliver them again: in another order, and on a later
connection as well.  Nothing else is assumed of where a frame comes from.

A frame which passes the authentication is acted on by the handler of its type.
Both ends have trackers of sequence numbers.
-/

structure Companion where
  tools : List String
  /-- `_permissions.is_allowed`. -/
  isAllowed : String -> Bool
  connected : Bool := false
  stopping : Bool := false
  seq : SequenceTracker := {}
  taskHistory : Dict String TaskResult := []
  /-- The replies sent, each with the id it answers. -/
  sent : List (TaskResult × String) := []
  /-- The messages which a handler has taken, and those for which a tool was run;
  kept beside the code. -/
  acted : List MessageEnvelope := []
  toolRuns : List MessageEnvelope := []

namespace Companion

/-- How the tool ends, were it run: its output or the text of an exception. -/
abbrev ToolAnswer := Except String String

def runTool (taskId : String) (answer : ToolAnswer) (durationMs : Int) : TaskResult :=
  match answer with
  | .ok output => ⟨taskId, "success", output, some durationMs⟩
  | .error text => ⟨taskId, "failure", text, some durationMs⟩

variable (companion : Companion)

def handleTask (message : MessageEnvelope) (taskId tool : String)
    (answer : ToolAnswer) (durationMs : Int) : Companion :=
  let runs := companion.tools.contains tool && companion.isAllowed tool
  let result :=
    if !companion.tools.contains tool then
      (⟨taskId, "failure", "Unknown companion tool: " ++ tool, none⟩ : TaskResult)
    else if !companion.isAllowed tool then
      ⟨taskId, "failure", "Permission denied for tool: " ++ tool, none⟩
    else runTool taskId answer durationMs
  { companion with
    taskHistory := Dict.set taskId result companion.taskHistory
    sent := companion.sent ++ [(result, message.id)]
    acted := companion.acted ++ [message]
    toolRuns := companion.toolRuns ++ if runs then [message] else [] }

def handleCommand (message : MessageEnvelope) (action : String) : Companion :=
  let acted := companion.acted ++ [message]
  if action = "decommission" then
    { companion with acted := acted, stopping := true, connected := false }
  else { companion with acted := acted }

def handles : MessageType -> Bool
  | .taskAssign | .command => true
  | _ => false

def handleMessage (message : MessageEnvelope) (answer : ToolAnswer)
    (durationMs : Int) : Companion :=
  match message.payload with
  | .taskAssign taskId _ _ tool _ => companion.handleTask message taskId tool answer durationMs
  | .command action _ => companion.handleCommand message action
  | _ => companion

end Companion

structure Hub where
  companion : Companion
  commander : Commander := {}

inductive HubInput where
  | connect
  | disconnect
  | stop
  | addConnection (agentId : String) (ws : Websocket)
  | removeConnection (agentId : String)
  | toCompanion (raw : String) (answer : Companion.ToolAnswer) (durationMs : Int)
  | toCommander (raw : String) (ws : Websocket) (agentId : String) (now : Int)

namespace Hub

variable (wire : Wire) (sessionKey : String)

/-- A frame that arrives; what does not pass the authentication is logged only. -/
def receive (hub : Hub) (raw : String) (handle : MessageEnvelope -> Hub) : Hub :=
  match deserializeMessage wire raw sessionKey with
  | .ok message => handle message
  | .error _ => hub

def step (hub : Hub) : HubInput -> Hub
  | .connect => { hub with companion := { hub.companion with connected := !hub.companion.stopping } }
  | .disconnect => { hub with companion := { hub.companion with connected := false } }
  | .stop => { hub with companion := { hub.companion with stopping := true, connected := false } }
  | .addConnection agentId ws => { hub with commander := hub.commander.addConnection agentId ws }
  | .removeConnection agentId => { hub with commander := hub.commander.removeConnection agentId }
  | .toCompanion raw answer durationMs =>
    if hub.companion.connected && !hub.companion.stopping then
      hub.receive wire sessionKey raw fun message =>
        { hub with companion := hub.companion.handleMessage message answer durationMs }
    else hub
  | .toCommander raw ws agentId now =>
    hub.receive wire sessionKey raw fun message =>
      { hub with commander := hub.commander.handleMessage message ws agentId now }

def machine (companion : Companion) : Machine Hub HubInput where
  initial := { companion := { companion with acted := [], toolRuns := [] } }
  step := step wire sessionKey

def acted (hub : Hub) : List MessageEnvelope :=
  hub.companion.acted ++ hub.commander.acted

structure Line where
  connected : Bool
  stopping : Bool

namespace Line

variable (line : Line)

/-- The authentic message of a frame, where its type has a handler. -/
def accepted (handles : MessageType -> Bool) (raw : String) : Option MessageEnvelope :=
  match deserializeMessage wire raw sessionKey with
  | .ok message => if handles message.payload.type then some message else none
  | .error _ => none

def delivery : HubInput -> Option MessageEnvelope
  | .toCompanion raw _ _ =>
    if line.connected && !line.stopping then accepted wire sessionKey Companion.handles raw else none
  | .toCommander raw _ _ _ => accepted wire sessionKey Commander.handles raw
  | _ => none

def endedBy (message : MessageEnvelope) : Bool :=
  match message.payload with
  | .command action _ => action == "decommission"
  | _ => false

def next : HubInput -> Line
  | .connect => { line with connected := !line.stopping }
  | .disconnect => { line with connected := false }
  | .stop => ⟨false, true⟩
  | .toCompanion raw answer durationMs =>
    if (line.delivery wire sessionKey (.toCompanion raw answer durationMs)).any endedBy then ⟨false, true⟩
    else line
  | _ => line

def machine (companion : Companion) : Machine Line HubInput where
  initial := ⟨companion.connected, companion.stopping⟩
  step line input := line.next wire sessionKey input

end Line

/-- The authentic messages with a handler that are delivered to an end that reads. -/
def deliveries (companion : Companion) (inputs : List HubInput) : List MessageEnvelope :=
  (Line.machine wire sessionKey companion).outputs
    (fun line input => (line.delivery wire sessionKey input).toList) inputs

def line (hub : Hub) : Line := ⟨hub.companion.connected, hub.companion.stopping⟩

/-! ## Acting once -/

/-- No frame has been acted on twice, and none has made a tool run twice. -/
def AtMostOnce (hub : Hub) : Prop :=
  hub.acted.Nodup ∧ hub.companion.toolRuns.Nodup

/-- A frame acted on before changes nothing at the commander but the record, and runs no tool. -/
def ReplayHarmless (hub : Hub) (input : HubInput) : Prop :=
  ∀ message, hub.line.delivery wire sessionKey input = some message -> message ∈ hub.acted ->
    { (hub.step wire sessionKey input).commander with acted := hub.commander.acted } = hub.commander ∧
      (hub.step wire sessionKey input).companion.toolRuns = hub.companion.toolRuns

structure Records (hub : Hub) (line : Line) (delivered : List MessageEnvelope) : Prop where
  line : hub.line = line
  acted : hub.acted.Perm delivered
  runs : hub.companion.toolRuns.Sublist hub.companion.acted

variable {wire sessionKey} {hub : Hub}

structure Takes (companion after : Companion) (message : MessageEnvelope) : Prop where
  acted : after.acted = companion.acted ++
    (if Companion.handles message.payload.type then [message] else [])
  runs : companion.toolRuns.Sublist companion.acted -> after.toolRuns.Sublist after.acted
  line : (⟨after.connected, after.stopping⟩ : Line) =
    if Line.endedBy message then ⟨false, true⟩ else ⟨companion.connected, companion.stopping⟩

theorem takes_handleTask (companion : Companion) {message : MessageEnvelope}
    (taskId idempotencyKey kind tool : String) (arguments : Json) (answer : Companion.ToolAnswer)
    (durationMs : Int) (payload : message.payload = .taskAssign taskId idempotencyKey kind tool arguments) :
    Takes companion (companion.handleTask message taskId tool answer durationMs) message where
  acted := by
    rw [payload]
    rfl
  runs := by
    intro runs
    refine runs.append ?_
    split
    · exact List.Sublist.refl _
    · exact List.nil_sublist _
  line := by
    unfold Line.endedBy
    rw [payload]
    rfl

theorem takes_handleCommand (companion : Companion) {message : MessageEnvelope} (action : String)
    (params : Json) (payload : message.payload = .command action params) :
    Takes companion (companion.handleCommand message action) message := by
  unfold Companion.handleCommand
  by_cases decommissions : action = "decommission"
  · dsimp only
    rw [if_pos decommissions]
    refine ⟨?_, fun runs => runs.trans (List.sublist_append_left _ _), ?_⟩
    · rw [payload]
      rfl
    · unfold Line.endedBy
      rw [payload]
      dsimp only
      rw [if_pos (beq_iff_eq.mpr decommissions)]
  · dsimp only
    rw [if_neg decommissions]
    refine ⟨?_, fun runs => runs.trans (List.sublist_append_left _ _), ?_⟩
    · rw [payload]
      rfl
    · unfold Line.endedBy
      rw [payload]
      dsimp only
      rw [if_neg (fun same => decommissions (beq_iff_eq.mp same))]

theorem takes_handleMessage (companion : Companion) (message : MessageEnvelope)
    (answer : Companion.ToolAnswer) (durationMs : Int) :
    Takes companion (companion.handleMessage message answer durationMs) message := by
  unfold Companion.handleMessage
  cases payload : message.payload with
  | taskAssign taskId idempotencyKey kind tool arguments =>
    exact takes_handleTask companion taskId idempotencyKey kind tool arguments answer durationMs payload
  | command action params => exact takes_handleCommand companion action params payload
  | _ =>
    refine ⟨?_, id, ?_⟩
    · rw [payload]
      exact (List.append_nil _).symm
    · unfold Line.endedBy
      rw [payload]
      rfl

theorem Line.any_endedBy (message : MessageEnvelope) :
    Option.any endedBy (if Companion.handles message.payload.type = true then some message else none) =
      endedBy message := by
  split
  case isTrue => rfl
  case isFalse unhandled =>
    unfold endedBy
    split
    case h_1 payload => exact (unhandled (by rw [payload]; rfl)).elim
    case h_2 => rfl

theorem acted_updateAgent (commander : Commander) (agentId : String) (change : AgentInfo -> AgentInfo) :
    (commander.updateAgent agentId change).acted = commander.acted := by
  unfold Commander.updateAgent
  split <;> rfl

theorem acted_handleMessage (commander : Commander) (message : MessageEnvelope) (ws : Websocket)
    (agentId : String) (now : Int) : (commander.handleMessage message ws agentId now).acted =
      commander.acted ++ if Commander.handles message.payload.type then [message] else [] := by
  unfold Commander.handleMessage
  cases message.payload with
  | heartbeat host environment metrics =>
    refine (acted_updateAgent _ agentId _).trans ?_
    cases (commander.acts message).agents.lookup agentId <;> rfl
  | sync results => exact acted_updateAgent _ agentId _
  | taskResult _ | llmRequest _ _ => rfl
  | _ => exact (List.append_nil _).symm

theorem perm_append_left {one other delivered more : List MessageEnvelope}
    (acted : (one ++ other).Perm delivered) : ((one ++ more) ++ other).Perm (delivered ++ more) := by
  rw [List.append_assoc]
  refine (List.Perm.append_left one List.perm_append_comm).trans ?_
  rw [← List.append_assoc]
  exact acted.append_right more

theorem Records.step {line : Line} {delivered : List MessageEnvelope} (records : Records hub line delivered)
    (input : HubInput) : Records (hub.step wire sessionKey input) (line.next wire sessionKey input)
      (delivered ++ (line.delivery wire sessionKey input).toList) := by
  have same := records.line
  subst same
  have quiet : ∀ {after : Hub} {next : Line}, after.line = next -> after.acted = hub.acted ->
      after.companion.toolRuns = hub.companion.toolRuns -> after.companion.acted = hub.companion.acted ->
      Records after next (delivered ++ (none : Option MessageEnvelope).toList) := by
    intro after next line acted runs own
    rw [Option.toList_none, List.append_nil]
    exact ⟨line, acted ▸ records.acted, runs ▸ own ▸ records.runs⟩
  cases input with
  | toCompanion raw answer durationMs =>
    unfold Hub.step Line.next Line.delivery
    dsimp only
    have listens : (hub.line.connected && !hub.line.stopping) =
      (hub.companion.connected && !hub.companion.stopping) := rfl
    rw [listens]
    cases hub.companion.connected && !hub.companion.stopping with
    | false => exact quiet rfl rfl rfl rfl
    | true =>
      simp only [if_true]
      unfold receive Line.accepted
      cases deserializeMessage wire raw sessionKey with
      | error _ => exact quiet rfl rfl rfl rfl
      | ok message =>
        have takes := takes_handleMessage hub.companion message answer durationMs
        refine ⟨?_, ?_, takes.runs records.runs⟩
        · refine takes.line.trans ?_
          simp only [Line.any_endedBy]
          rfl
        · unfold Hub.acted
          dsimp only
          rw [takes.acted]
          split
          · exact perm_append_left records.acted
          · exact perm_append_left records.acted
  | toCommander raw ws agentId now =>
    unfold Hub.step Line.next Line.delivery receive Line.accepted
    dsimp only
    cases deserializeMessage wire raw sessionKey with
    | error _ => exact quiet rfl rfl rfl rfl
    | ok message =>
      refine ⟨rfl, ?_, records.runs⟩
      unfold Hub.acted
      dsimp only
      rw [acted_handleMessage, ← List.append_assoc]
      split
      · exact records.acted.append_right [message]
      · exact records.acted.append_right []
  | connect | disconnect | stop => exact quiet rfl rfl rfl rfl
  | addConnection agentId ws => exact quiet rfl rfl rfl rfl
  | removeConnection agentId => exact quiet rfl rfl rfl rfl

variable (companion : Companion)

theorem records_after (inputs : List HubInput) : Records ((machine wire sessionKey companion).after inputs)
      ((Line.machine wire sessionKey companion).after inputs)
      (deliveries wire sessionKey companion inputs) := by
  induction inputs using List.reverseRecOn with
  | nil => exact ⟨rfl, List.Perm.refl [], List.Sublist.refl []⟩
  | append_singleton earlier input ih =>
    unfold deliveries at ih ⊢
    rw [Machine.after_append_singleton, Machine.after_append_singleton, Machine.outputs_append_singleton,
      ← ih.line]
    have next := @Records.step wire sessionKey _ _ _ ih input
    rw [← ih.line] at next
    exact next

theorem deliveries_grow (before rest : List HubInput) :
    deliveries wire sessionKey companion before <+: deliveries wire sessionKey companion (before ++ rest) := by
  induction rest using List.reverseRecOn with
  | nil =>
    rw [List.append_nil]
  | append_singleton rest input ih =>
    unfold deliveries at ih ⊢
    rw [← List.append_assoc, Machine.outputs_append_singleton]
    exact ih.trans (List.prefix_append _ _)

/-- The tracker accepts each number once and in order; the receive paths act on
every frame once exactly when no authentic message is delivered again. -/
theorem frames_acted_once (wire : Wire) (sessionKey : String) (companion : Companion) :
    (∀ (fromIsoformat : String -> Option Datetime) (attempts : List SequenceTracker.Attempt),
      ∃ count : Nat, (SequenceTracker.acceptAll fromIsoformat {} attempts).1 =
        (List.range count).map fun place : Nat => (place : Int) + 1) ∧ ∀ inputs : List HubInput,
      ((machine wire sessionKey companion).EveryState AtMostOnce inputs ∧
        (machine wire sessionKey companion).EveryStep (ReplayHarmless wire sessionKey) inputs) <->
      (deliveries wire sessionKey companion inputs).Nodup := by
  refine ⟨fun _ attempts => SequenceTracker.acceptAll_fresh attempts, ?_⟩
  intro inputs
  constructor
  · intro both
    have records := @records_after wire sessionKey companion inputs
    exact records.acted.nodup_iff.mp (both.1 inputs [] (List.append_nil inputs).symm).1
  · intro distinct
    constructor
    · rintro before rest rfl
      have records := @records_after wire sessionKey companion before
      have acted := records.acted.nodup_iff.mpr
        (distinct.sublist (deliveries_grow companion before rest).sublist)
      exact ⟨acted, (List.nodup_append.mp acted).1.sublist records.runs⟩
    · rintro before input rest rfl message delivered again
      have records := @records_after wire sessionKey companion before
      have upTo : (deliveries wire sessionKey companion (before ++ [input])).Nodup := by
        refine distinct.sublist (List.IsPrefix.sublist ?_)
        rw [List.append_cons before input rest]
        exact deliveries_grow companion (before ++ [input]) rest
      unfold deliveries at upTo records
      rw [Machine.outputs_append_singleton, ← records.line, delivered] at upTo
      exact (List.disjoint_of_nodup_append upTo (records.acted.mem_iff.mp again)
        (List.mem_singleton_self message)).elim

def plainDigest (message : MessageEnvelope) (sessionKey : String) : String :=
  sessionKey ++ ":" ++ message.id ++ ":" ++ message.timestamp

def powerOff : MessageEnvelope :=
  createMessage "m1" "2026-01-01T00:00:00+00:00" "commander" "companion-1"
    (.taskAssign "t1" "k1" "tool" "companion_power" (.obj []))

def recordedTask : List HubInput :=
  [.connect, .toCompanion "frame" (.ok "off") 5, .disconnect, .connect,
    .toCompanion "frame" (.ok "off") 5]

theorem frame_acted_twice : Not (∀ (wire : Wire) (sessionKey : String) (companion : Companion)
      (inputs : List HubInput), (machine wire sessionKey companion).EveryState AtMostOnce inputs ∧
        (machine wire sessionKey companion).EveryStep (ReplayHarmless wire sessionKey) inputs) := by
  intro claim
  have once := (claim
    { loads := fun _ => some (powerOff, some (plainDigest powerOff "key"))
      computeHmac := plainDigest }
    "key" { tools := ["companion_power"], isAllowed := fun _ => true } recordedTask).1
    recordedTask [] (List.append_nil _).symm
  have runs : [powerOff, powerOff].Nodup := once.2
  exact (List.nodup_cons.mp runs).1 (List.mem_singleton_self powerOff)

end Hub

end Network
end BreadMind
