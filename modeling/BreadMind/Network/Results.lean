import BreadMind.Execution.Bags
import BreadMind.Execution.Machine
import BreadMind.Network.Commander
import BreadMind.Network.Worker

namespace BreadMind
namespace Network

open Execution

/-!
# The results of a worker on their way to the commander

The commander assigns each task under a new id.  The worker runs several tasks
at once and may be sending its queue meanwhile; its connection comes and goes.
A send either returns or raises, and when it raises the message may have got
out or not.  Messages under way are delivered in any order, and what is under
way may be lost with the connection.
-/

/-- One `sync_offline_queue` which is waiting for its send. -/
structure Syncing where
  results : List TaskResult
  /-- The message has got out. -/
  reached : Bool

inductive SendEnd where
  | returned
  | raised (reached : Bool)

def SendEnd.reached : SendEnd -> Bool
  | returned => true
  | raised reached => reached

abbrev Assignment := String × String

/-- The tasks assigned and the results computed so far are kept beside the code. -/
structure Site where
  worker : Worker
  commander : Commander := {}
  assigned : List String := []
  toWorker : List Assignment := []
  /-- The tasks which are being run, each with whether a role blocked its tool. -/
  running : List (Assignment × Bool) := []
  syncs : List Syncing := []
  toCommander : List Payload := []
  computed : List TaskResult := []

inductive SiteInput where
  | dispatch (taskId tool : String)
  | startTask (index : Nat)
  | finishTask (index : Nat) (ended : ToolEnd) (durationMs : Int) (send : SendEnd)
  | roleUpdate (role : WorkerRole)
  | command (action : String)
  | connect
  | disconnect
  | startSync (reached : Bool)
  | finishSync (index : Nat) (returned : Bool)
  | deliver (index : Nat) (id timestamp : String) (ws : Websocket) (now : Int)
  | lose (index : Nat)

def Payload.results : Payload -> List TaskResult
  | .taskResult result => [result]
  | .sync results => results
  | _ => []

namespace Site

def dispatch (site : Site) (taskId tool : String) : Site :=
  if taskId ∈ site.assigned then site
  else
    { site with
      assigned := site.assigned ++ [taskId], toWorker := site.toWorker ++ [(taskId, tool)] }

def startTask (site : Site) (index : Nat) : Site :=
  match site.toWorker[index]? with
  | none => site
  | some task =>
    { site with
      toWorker := site.toWorker.eraseIdx index
      running := site.running ++ [(task, site.worker.isToolBlocked task.2)] }

def resultOf (task : Assignment × Bool) (ended : ToolEnd) (durationMs : Int) : TaskResult :=
  if task.2 then Worker.blockedResult task.1.1 task.1.2
  else Worker.toolResult task.1.1 ended durationMs

def post (site : Site) (message : Option Payload) (reached : Bool) : Site :=
  if reached then { site with toCommander := site.toCommander ++ message.toList } else site

def finishTask (site : Site) (index : Nat) (ended : ToolEnd) (durationMs : Int) (send : SendEnd) :
    Site :=
  match site.running[index]? with
  | none => site
  | some task =>
    let result := resultOf task ended durationMs
    let reported := site.worker.report result
    { site with
      worker := reported.2
      running := site.running.eraseIdx index
      computed := site.computed ++ [result] }.post reported.1 send.reached

/-- `sync_offline_queue` up to its wait.  Without a connection there is none. -/
def startSync (site : Site) (reached : Bool) : Site :=
  if site.worker.offlineQueue.isEmpty then site
  else if site.worker.connected then
    { site with syncs := site.syncs ++ [Syncing.mk site.worker.offlineQueue reached] }.post
      (some site.worker.syncMessage) reached
  else { site with worker := site.worker.syncDone }

/-- A send returns only for a message which has got out. -/
def finishSync (site : Site) (index : Nat) (returned : Bool) : Site :=
  match site.syncs[index]? with
  | none => site
  | some sync =>
    if returned then
      if sync.reached then
        { site with worker := site.worker.syncDone, syncs := site.syncs.eraseIdx index }
      else site
    else { site with syncs := site.syncs.eraseIdx index }

def deliver (site : Site) (index : Nat) (id timestamp : String) (ws : Websocket) (now : Int) :
    Site :=
  match site.toCommander[index]? with
  | none => site
  | some payload =>
    { site with
      commander := site.commander.handleMessage
        (createMessage id timestamp site.worker.agentId "commander" payload)
        ws site.worker.agentId now
      toCommander := site.toCommander.eraseIdx index }

def step (site : Site) : SiteInput -> Site
  | .dispatch taskId tool => site.dispatch taskId tool
  | .startTask index => site.startTask index
  | .finishTask index ended durationMs send => site.finishTask index ended durationMs send
  | .roleUpdate role => { site with worker := site.worker.handleRoleUpdate role }
  | .command action => { site with worker := site.worker.handleCommand action }
  | .connect => { site with worker := { site.worker with connected := true } }
  | .disconnect => { site with worker := { site.worker with connected := false } }
  | .startSync reached => site.startSync reached
  | .finishSync index returned => site.finishSync index returned
  | .deliver index id timestamp ws now => site.deliver index id timestamp ws now
  | .lose index => { site with toCommander := site.toCommander.eraseIdx index }

def machine (agentId : String) : Machine Site SiteInput where
  initial := { worker := { agentId := agentId } }
  step := step

def Recorded (site : Site) (result : TaskResult) : Prop :=
  site.commander.completedTasks.lookup result.taskId = some result

def UnderWay (site : Site) (result : TaskResult) : Prop :=
  ∃ message ∈ site.toCommander, result ∈ message.results

structure NothingLost (site : Site) : Prop where
  kept : ∀ result ∈ site.computed,
    Recorded site result ∨ UnderWay site result ∨ result ∈ site.worker.offlineQueue

def FinalKept (site : Site) (input : SiteInput) : Prop :=
  ∀ taskId result, site.commander.completedTasks.lookup taskId = some result ->
    (site.step input).commander.completedTasks.lookup taskId = some result

/-- The steps at which nothing can slip through: the send of a single result
does not fail, the queue is not synced without a connection, nothing was queued
while a sync was sending, and only messages whose results are recorded are lost
with the connection. -/
def Careful (site : Site) : SiteInput -> Prop
  | .finishTask _ _ _ send => site.worker.connected = true -> send.reached = true
  | .startSync _ => site.worker.connected = false -> site.worker.offlineQueue = []
  | .finishSync index true => ∀ sync, site.syncs[index]? = some sync -> sync.reached = true ->
      ∀ result ∈ site.worker.offlineQueue, result ∈ sync.results
  | .lose index => ∀ message, site.toCommander[index]? = some message ->
      ∀ result ∈ message.results, Recorded site result
  | _ => True

/-! ## What the commander records of a message -/

def recordAll (completed : Dict String TaskResult) : Payload -> Dict String TaskResult
  | .taskResult result => Dict.set result.taskId result completed
  | .sync results => results.foldl Commander.syncOne completed
  | _ => completed

theorem completedTasks_updateAgent (commander : Commander) (agentId : String)
    (change : AgentInfo -> AgentInfo) :
    (commander.updateAgent agentId change).completedTasks = commander.completedTasks := by
  unfold Commander.updateAgent
  split <;> rfl

theorem completedTasks_handleMessage (commander : Commander) (message : MessageEnvelope)
    (ws : Websocket) (agentId : String) (now : Int) :
    (commander.handleMessage message ws agentId now).completedTasks =
      recordAll commander.completedTasks message.payload := by
  unfold Commander.handleMessage
  cases message.payload with
  | heartbeat host environment metrics =>
    refine (completedTasks_updateAgent _ agentId _).trans ?_
    cases (commander.acts message).agents.lookup agentId <;> rfl
  | sync results => exact completedTasks_updateAgent _ agentId _
  | _ => rfl

variable {taskId : String} {result : TaskResult}

theorem lookup_foldl_syncOne {results : List TaskResult} :
    ∀ {completed : Dict String TaskResult}, completed.lookup taskId = some result ->
      (results.foldl Commander.syncOne completed).lookup taskId = some result := by
  induction results with
  | nil => exact fun found => found
  | cons head rest ih =>
    intro completed found
    refine ih ?_
    unfold Commander.syncOne
    cases known : completed.lookup head.taskId with
    | some _ => exact found
    | none =>
      refine (Dict.lookup_set_of_ne completed ?_ head).trans found
      intro same
      rw [same, known] at found
      cases found

variable {completed : Dict String TaskResult} {payload : Payload}

theorem of_recordAll (found : (recordAll completed payload).lookup taskId = some result) :
    completed.lookup taskId = some result ∨ (result ∈ payload.results ∧ result.taskId = taskId) := by
  cases payload with
  | taskResult sent =>
    change (Dict.set sent.taskId sent completed).lookup taskId = _ at found
    rw [Dict.lookup_set] at found
    split at found
    case isTrue same =>
      cases found
      exact .inr ⟨List.mem_singleton_self _, same.symm⟩
    case isFalse => exact .inl found
  | sync results =>
    change (results.foldl Commander.syncOne completed).lookup taskId = _ at found
    change _ ∨ (result ∈ results ∧ _)
    induction results generalizing completed with
    | nil => exact .inl found
    | cons head rest ih =>
      rcases ih found with before | ⟨member, keyed⟩
      · unfold Commander.syncOne at before
        split at before
        · rw [Dict.lookup_set] at before
          split at before
          case isTrue same =>
            cases before
            exact .inr ⟨List.mem_cons_self, same.symm⟩
          case isFalse => exact .inl before
        · exact .inl before
      · exact .inr ⟨List.mem_cons_of_mem _ member, keyed⟩
  | _ => exact .inl found

theorem lookup_recordAll (found : completed.lookup taskId = some result)
    (agrees : ∀ other ∈ payload.results, other.taskId = taskId -> other = result) :
    (recordAll completed payload).lookup taskId = some result := by
  cases payload with
  | taskResult sent =>
    change (Dict.set sent.taskId sent completed).lookup taskId = _
    rw [Dict.lookup_set]
    split
    case isTrue same => exact congrArg some (agrees sent (List.mem_singleton_self _) same.symm)
    case isFalse => exact found
  | sync results => exact lookup_foldl_syncOne found
  | _ => exact found

theorem lookup_recordAll_self (member : result ∈ payload.results)
    (agrees : ∀ other ∈ payload.results, other.taskId = result.taskId -> other = result)
    (recorded : ∀ other, completed.lookup result.taskId = some other -> other = result) :
    (recordAll completed payload).lookup result.taskId = some result := by
  cases payload with
  | taskResult sent =>
    cases List.mem_singleton.mp member
    exact Dict.lookup_set_self completed _ _
  | sync results =>
    change (results.foldl Commander.syncOne completed).lookup result.taskId = _
    change result ∈ results at member
    change ∀ other ∈ results, _ at agrees
    induction results generalizing completed with
    | nil => cases member
    | cons head rest ih =>
      -- After the round of a result for this task it is recorded; before, nothing is lost.
      rw [List.foldl_cons]
      by_cases same : head.taskId = result.taskId
      · have first := agrees head List.mem_cons_self same
        refine lookup_foldl_syncOne ?_
        unfold Commander.syncOne
        rw [first]
        cases known : completed.lookup result.taskId with
        | none => exact Dict.lookup_set_self completed _ _
        | some other => exact known.trans (congrArg some (recorded other known))
      · refine ih ?_ ?_ ?_
        · intro other found
          refine recorded other ?_
          unfold Commander.syncOne at found
          split at found
          · exact (Dict.lookup_set_of_ne completed (Ne.symm same) head).symm.trans found
          · exact found
        · refine (List.mem_cons.mp member).resolve_left ?_
          intro here
          exact same (congrArg TaskResult.taskId here.symm)
        · exact fun other later => agrees other (List.mem_cons_of_mem _ later)
  | _ => cases member

/-! ## Each task has one result -/

def taskIds (site : Site) : List String :=
  site.toWorker.map Prod.fst ++ site.running.map (fun task => task.1.1) ++
    site.computed.map TaskResult.taskId

def Circulates (site : Site) (result : TaskResult) : Prop :=
  (∃ taskId, site.commander.completedTasks.lookup taskId = some result) ∨
    UnderWay site result ∨ result ∈ site.worker.offlineQueue ∨
      ∃ sync ∈ site.syncs, result ∈ sync.results

structure Orderly (site : Site) : Prop where
  once : site.taskIds.Nodup
  assigned : ∀ taskId ∈ site.taskIds, taskId ∈ site.assigned
  known : ∀ result, Circulates site result -> result ∈ site.computed
  keyed : ∀ taskId result, site.commander.completedTasks.lookup taskId = some result ->
    result.taskId = taskId

variable {site : Site}

theorem Orderly.unique (orderly : Orderly site) {first second : TaskResult}
    (one : first ∈ site.computed) (two : second ∈ site.computed)
    (same : first.taskId = second.taskId) : first = second := by
  have distinct : (site.computed.map TaskResult.taskId).Nodup :=
    (List.nodup_append.mp orderly.once).2.1
  exact List.inj_on_of_nodup_map distinct one two same

theorem Orderly.of_perm (orderly : Orderly site) {after : Site}
    (tasks : after.taskIds.Perm site.taskIds) (same : after.assigned = site.assigned)
    (known : ∀ result, Circulates after result -> result ∈ after.computed)
    (keyed : after.commander.completedTasks = site.commander.completedTasks) : Orderly after where
  once := tasks.nodup_iff.mpr orderly.once
  assigned := fun taskId member => same ▸ orderly.assigned taskId (tasks.mem_iff.mp member)
  known := known
  keyed := fun taskId result found => orderly.keyed taskId result (keyed ▸ found)

theorem orderly_dispatch (orderly : Orderly site) (taskId tool : String) :
    Orderly (site.dispatch taskId tool) := by
  unfold dispatch
  split
  · exact orderly
  case isFalse fresh =>
    have tasks : (taskIds { site with
        assigned := site.assigned ++ [taskId], toWorker := site.toWorker ++ [(taskId, tool)] }).Perm
        (taskId :: site.taskIds) := by
      refine List.perm_iff_count.mpr ?_
      intro other
      simp only [taskIds, List.map_append, List.map_cons, List.map_nil, List.count_append,
        List.count_cons, List.count_nil]
      omega
    refine ⟨?_, ?_, orderly.known, orderly.keyed⟩
    · refine tasks.nodup_iff.mpr (List.nodup_cons.mpr ⟨?_, orderly.once⟩)
      exact fun member => fresh (orderly.assigned taskId member)
    · intro other member
      rcases List.mem_cons.mp (tasks.mem_iff.mp member) with here | before
      · exact List.mem_append_right _ (List.mem_singleton.mpr here)
      · exact List.mem_append_left _ (orderly.assigned other before)

theorem orderly_startTask (orderly : Orderly site) (index : Nat) :
    Orderly (site.startTask index) := by
  unfold startTask
  cases here : site.toWorker[index]? with
  | none => exact orderly
  | some task =>
    refine orderly.of_perm ?_ rfl orderly.known rfl
    refine List.perm_iff_count.mpr ?_
    intro other
    have taken := (taken_map_perm Prod.fst here).count_eq other
    simp only [List.count_cons] at taken
    simp only [taskIds, List.map_append, List.map_cons, List.map_nil, List.count_append,
      List.count_cons, List.count_nil]
    omega

theorem resultOf_taskId (task : Assignment × Bool) (ended : ToolEnd) (durationMs : Int) :
    (resultOf task ended durationMs).taskId = task.1.1 := by
  unfold resultOf
  split
  · rfl
  · cases ended <;> rfl

theorem underWay_post {message : Option Payload} {reached : Bool}
    (underWay : UnderWay (site.post message reached) result) :
    UnderWay site result ∨ ∃ payload, message = some payload ∧ result ∈ payload.results := by
  unfold post at underWay
  split at underWay
  · rcases underWay with ⟨other, member, carried⟩
    rcases List.mem_append.mp member with old | new
    · exact .inl ⟨other, old, carried⟩
    · exact .inr ⟨other, Option.mem_toList.mp new, carried⟩
  · exact .inl underWay

theorem post_fields (message : Option Payload) (reached : Bool) :
    (site.post message reached).worker = site.worker ∧
      (site.post message reached).commander = site.commander ∧
      (site.post message reached).syncs = site.syncs ∧
      (site.post message reached).computed = site.computed ∧
      (site.post message reached).assigned = site.assigned ∧
      (site.post message reached).taskIds = site.taskIds := by
  unfold post
  split <;> exact ⟨rfl, rfl, rfl, rfl, rfl, rfl⟩

theorem orderly_post (orderly : Orderly site) {message : Option Payload} (reached : Bool)
    (computed : ∀ payload, message = some payload -> ∀ result ∈ payload.results,
      result ∈ site.computed) : Orderly (site.post message reached) := by
  rcases (post_fields message reached : (site.post message reached).worker = _ ∧ _) with
    ⟨worker, commander, syncs, sameComputed, assigned, tasks⟩
  refine orderly.of_perm (List.Perm.of_eq tasks) assigned ?_ (congrArg _ commander)
  intro result circulates
  unfold Circulates at circulates
  rw [sameComputed]
  rw [worker, commander, syncs] at circulates
  rcases circulates with recorded | underWay | rest
  · exact orderly.known result (.inl recorded)
  · rcases underWay_post underWay with old | ⟨payload, same, carried⟩
    · exact orderly.known result (.inr (.inl old))
    · exact computed payload same result carried
  · exact orderly.known result (.inr (.inr rest))

theorem offlineQueue_report (worker : Worker) (result : TaskResult) :
    (worker.report result).2.offlineQueue =
      if worker.connected then worker.offlineQueue else worker.offlineQueue ++ [result] := by
  unfold Worker.report
  cases worker.connected <;> rfl

theorem message_report (worker : Worker) (result : TaskResult) :
    (worker.report result).1 = if worker.connected then some (.taskResult result) else none := by
  unfold Worker.report
  cases worker.connected <;> rfl

theorem orderly_finishTask (orderly : Orderly site) (index : Nat) (ended : ToolEnd)
    (durationMs : Int) (send : SendEnd) :
    Orderly (site.finishTask index ended durationMs send) := by
  unfold finishTask
  cases here : site.running[index]? with
  | none => exact orderly
  | some task =>
    have mine := resultOf_taskId task ended durationMs
    refine orderly_post ?_ send.reached ?_
    · refine orderly.of_perm ?_ rfl ?_ rfl
      · refine List.perm_iff_count.mpr ?_
        intro other
        have taken :=
          (taken_map_perm (fun task : Assignment × Bool => task.1.1) here).count_eq other
        simp only [List.count_cons] at taken
        simp only [taskIds, List.map_append, List.map_cons, List.map_nil, List.count_append,
          List.count_cons, List.count_nil, mine]
        omega
      · intro result circulates
        have old : Circulates site result ->
            result ∈ site.computed ++ [resultOf task ended durationMs] :=
          fun known => List.mem_append_left _ (orderly.known result known)
        rcases circulates with recorded | underWay | queued | snapshot
        · exact old (.inl recorded)
        · exact old (.inr (.inl underWay))
        · change result ∈ (site.worker.report _).2.offlineQueue at queued
          rw [offlineQueue_report] at queued
          split at queued
          · exact old (.inr (.inr (.inl queued)))
          · rcases List.mem_append.mp queued with before | now
            · exact old (.inr (.inr (.inl before)))
            · exact List.mem_append_right _ now
        · exact old (.inr (.inr (.inr snapshot)))
    · intro payload same result carried
      rw [message_report] at same
      split at same
      · cases same
        exact List.mem_append_right _ carried
      · cases same

theorem orderly_startSync (orderly : Orderly site) (reached : Bool) :
    Orderly (site.startSync reached) := by
  unfold startSync
  split
  · exact orderly
  · split
    · refine orderly_post ?_ reached ?_
      · refine orderly.of_perm (List.Perm.refl _) rfl ?_ rfl
        intro result circulates
        rcases circulates with recorded | underWay | queued | ⟨sync, member, carried⟩
        · exact orderly.known result (.inl recorded)
        · exact orderly.known result (.inr (.inl underWay))
        · exact orderly.known result (.inr (.inr (.inl queued)))
        · rcases List.mem_append.mp member with old | new
          · exact orderly.known result (.inr (.inr (.inr ⟨sync, old, carried⟩)))
          · rw [List.mem_singleton.mp new] at carried
            exact orderly.known result (.inr (.inr (.inl carried)))
      · intro payload same result carried
        cases same
        exact orderly.known result (.inr (.inr (.inl carried)))
    · refine orderly.of_perm (List.Perm.refl _) rfl ?_ rfl
      intro result circulates
      refine orderly.known result ?_
      rcases circulates with recorded | underWay | queued | snapshot
      · exact .inl recorded
      · exact .inr (.inl underWay)
      · exact (List.not_mem_nil queued).elim
      · exact .inr (.inr (.inr snapshot))

theorem orderly_finishSync (orderly : Orderly site) (index : Nat) (returned : Bool) :
    Orderly (site.finishSync index returned) := by
  have fewer : ∀ worker : Worker, (∀ result ∈ worker.offlineQueue,
      result ∈ site.worker.offlineQueue) ->
      Orderly { site with worker := worker, syncs := site.syncs.eraseIdx index } := by
    intro worker queue
    refine orderly.of_perm (List.Perm.refl _) rfl ?_ rfl
    intro result circulates
    refine orderly.known result ?_
    rcases circulates with recorded | underWay | queued | ⟨sync, member, carried⟩
    · exact .inl recorded
    · exact .inr (.inl underWay)
    · exact .inr (.inr (.inl (queue result queued)))
    · exact .inr (.inr (.inr ⟨sync, List.mem_of_mem_eraseIdx member, carried⟩))
  unfold finishSync
  cases site.syncs[index]? with
  | none => exact orderly
  | some sync =>
    cases returned with
    | false => exact fewer site.worker fun _ queued => queued
    | true =>
      cases reached : sync.reached with
      | false =>
        simp only [reached, if_true, Bool.false_eq_true, if_false]
        exact orderly
      | true =>
        simp only [reached, if_true]
        exact fewer _ fun _ queued => (List.not_mem_nil queued).elim

theorem orderly_deliver (orderly : Orderly site) (index : Nat) (id timestamp : String)
    (ws : Websocket) (now : Int) : Orderly (site.deliver index id timestamp ws now) := by
  unfold deliver
  cases here : site.toCommander[index]? with
  | none => exact orderly
  | some payload =>
    have carried : ∀ result ∈ payload.results, result ∈ site.computed :=
      fun result member =>
        orderly.known result (.inr (.inl ⟨payload, List.mem_of_getElem? here, member⟩))
    have recorded : ∀ {taskId result},
        (Commander.handleMessage site.commander (createMessage id timestamp site.worker.agentId
          "commander" payload) ws site.worker.agentId now).completedTasks.lookup taskId =
          some result ->
        site.commander.completedTasks.lookup taskId = some result ∨
          (result ∈ payload.results ∧ result.taskId = taskId) := by
      intro taskId result found
      rw [completedTasks_handleMessage] at found
      exact of_recordAll found
    refine ⟨orderly.once, orderly.assigned, ?_, ?_⟩
    · intro result circulates
      rcases circulates with ⟨taskId, found⟩ | ⟨message, member, inside⟩ | rest
      · rcases recorded found with old | ⟨new, _⟩
        · exact orderly.known result (.inl ⟨taskId, old⟩)
        · exact carried result new
      · exact orderly.known result
          (.inr (.inl ⟨message, List.mem_of_mem_eraseIdx member, inside⟩))
      · exact orderly.known result (.inr (.inr rest))
    · intro taskId result found
      rcases recorded found with old | ⟨_, keyed⟩
      · exact orderly.keyed taskId result old
      · exact keyed

theorem orderly_step (orderly : Orderly site) (input : SiteInput) : Orderly (site.step input) := by
  -- The other steps leave the tasks and the results where they are.
  have unmoved : ∀ worker : Worker, worker.offlineQueue = site.worker.offlineQueue ->
      Orderly { site with worker := worker } := by
    intro worker queue
    refine orderly.of_perm (List.Perm.refl _) rfl ?_ rfl
    intro result circulates
    unfold Circulates at circulates
    rw [queue] at circulates
    exact orderly.known result circulates
  cases input with
  | dispatch taskId tool => exact orderly_dispatch orderly taskId tool
  | startTask index => exact orderly_startTask orderly index
  | finishTask index ended durationMs send =>
    exact orderly_finishTask orderly index ended durationMs send
  | roleUpdate role =>
    refine unmoved _ ?_
    unfold Worker.handleRoleUpdate
    split <;> rfl
  | command action =>
    refine unmoved _ ?_
    unfold Worker.handleCommand
    split <;> rfl
  | connect => exact unmoved _ rfl
  | disconnect => exact unmoved _ rfl
  | startSync reached => exact orderly_startSync orderly reached
  | finishSync index returned => exact orderly_finishSync orderly index returned
  | deliver index id timestamp ws now => exact orderly_deliver orderly index id timestamp ws now
  | lose index =>
    refine orderly.of_perm (List.Perm.refl _) rfl ?_ rfl
    intro result circulates
    refine orderly.known result ?_
    rcases circulates with recorded | ⟨message, member, carried⟩ | rest
    · exact .inl recorded
    · exact .inr (.inl ⟨message, List.mem_of_mem_eraseIdx member, carried⟩)
    · exact .inr (.inr rest)

theorem orderly_initial (agentId : String) : Orderly { worker := { agentId := agentId } } := by
  refine ⟨List.nodup_nil, ?_, ?_, ?_⟩
  · intro taskId member
    exact (List.not_mem_nil member).elim
  · rintro result (⟨taskId, found⟩ | ⟨message, member, _⟩ | queued | ⟨sync, member, _⟩)
    · cases found
    · exact (List.not_mem_nil member).elim
    · exact (List.not_mem_nil queued).elim
    · exact (List.not_mem_nil member).elim
  · intro taskId result found
    cases found

variable {index : Nat}

theorem recorded_deliver (orderly : Orderly site) (here : site.toCommander[index]? = some payload)
    (found : site.commander.completedTasks.lookup taskId = some result) :
    (recordAll site.commander.completedTasks payload).lookup taskId = some result := by
  refine lookup_recordAll found ?_
  intro other member same
  refine orderly.unique ?_ (orderly.known result (.inl ⟨taskId, found⟩)) ?_
  · exact orderly.known other (.inr (.inl ⟨payload, List.mem_of_getElem? here, member⟩))
  · exact same.trans (orderly.keyed taskId result found).symm

theorem lookup_post (message : Option Payload) (reached : Bool)
    (found : site.commander.completedTasks.lookup taskId = some result) :
    (site.post message reached).commander.completedTasks.lookup taskId = some result := by
  rw [(post_fields message reached).2.1]
  exact found

theorem finalKept_step (orderly : Orderly site) (input : SiteInput) : FinalKept site input := by
  intro taskId result found
  cases input with
  | deliver index id timestamp ws now =>
    change (site.deliver index id timestamp ws now).commander.completedTasks.lookup taskId = _
    unfold deliver
    cases here : site.toCommander[index]? with
    | none => exact found
    | some payload =>
      change (Commander.handleMessage _ _ _ _ _).completedTasks.lookup taskId = _
      rw [completedTasks_handleMessage]
      exact recorded_deliver orderly here found
  | dispatch other tool =>
    change (site.dispatch other tool).commander.completedTasks.lookup taskId = _
    unfold dispatch
    split <;> exact found
  | startTask index =>
    change (site.startTask index).commander.completedTasks.lookup taskId = _
    unfold startTask
    split <;> exact found
  | finishTask index ended durationMs send =>
    change (site.finishTask index ended durationMs send).commander.completedTasks.lookup taskId = _
    unfold finishTask
    split
    · exact found
    · exact lookup_post _ send.reached found
  | startSync reached =>
    change (site.startSync reached).commander.completedTasks.lookup taskId = _
    unfold startSync
    split
    · exact found
    · split
      · exact lookup_post _ reached found
      · exact found
  | finishSync index returned =>
    change (site.finishSync index returned).commander.completedTasks.lookup taskId = _
    unfold finishSync
    split
    · exact found
    · split
      · split <;> exact found
      · exact found
  | _ => exact found

/-! ## What is out of the worker stays out -/

def Out (site : Site) (result : TaskResult) : Prop :=
  Recorded site result ∨ UnderWay site result

theorem underWay_of_post (message : Option Payload) (reached : Bool)
    (underWay : UnderWay site result) : UnderWay (site.post message reached) result := by
  rcases underWay with ⟨other, member, carried⟩
  refine ⟨other, ?_, carried⟩
  unfold post
  split
  · exact List.mem_append_left _ member
  · exact member

theorem underWay_posted {message : Payload}
    (carried : result ∈ message.results) : UnderWay (site.post (some message) true) result :=
  ⟨message, List.mem_append_right _ (List.mem_singleton_self message), carried⟩

theorem underWay_eraseIdx {message : Payload} (here : site.toCommander[index]? = some message)
    (underWay : UnderWay site result) : result ∈ message.results ∨
      ∃ other ∈ site.toCommander.eraseIdx index, result ∈ other.results := by
  rcases underWay with ⟨other, member, carried⟩
  rcases mem_taken here member with same | rest
  · exact .inl (same ▸ carried)
  · exact .inr ⟨other, rest, carried⟩

theorem out_deliver (orderly : Orderly site) {id timestamp : String} {ws : Websocket}
    {now : Int} (underWay : UnderWay site result) :
    Out (site.deliver index id timestamp ws now) result := by
  unfold deliver
  cases here : site.toCommander[index]? with
  | none => exact .inr underWay
  | some payload =>
    rcases underWay_eraseIdx here underWay with taken | rest
    · refine Or.inl ?_
      change (Commander.handleMessage _ _ _ _ _).completedTasks.lookup result.taskId = _
      rw [completedTasks_handleMessage]
      have computed : ∀ other ∈ payload.results, other ∈ site.computed :=
        fun other member =>
          orderly.known other (.inr (.inl ⟨payload, List.mem_of_getElem? here, member⟩))
      refine lookup_recordAll_self taken ?_ ?_
      · intro other member same
        exact orderly.unique (computed other member) (computed result taken) same
      · intro other found
        exact orderly.unique (orderly.known other (.inl ⟨_, found⟩)) (computed result taken)
          (orderly.keyed _ other found)
    · exact .inr rest

theorem out_step (orderly : Orderly site) (input : SiteInput) (careful : Careful site input)
    (out : Out site result) : Out (site.step input) result := by
  rcases out with recorded | underWay
  · exact .inl (finalKept_step orderly input _ _ recorded)
  · cases input with
    | deliver index id timestamp ws now => exact out_deliver orderly underWay
    | lose index =>
      cases here : site.toCommander[index]? with
      | none =>
        refine Or.inr ?_
        rcases underWay with ⟨message, member, carried⟩
        refine ⟨message, ?_, carried⟩
        change message ∈ site.toCommander.eraseIdx index
        rw [List.eraseIdx_of_length_le (List.getElem?_eq_none_iff.mp here)]
        exact member
      | some message =>
        rcases underWay_eraseIdx here underWay with taken | rest
        · exact .inl (careful message here result taken)
        · exact .inr rest
    | dispatch other tool =>
      refine Or.inr ?_
      change UnderWay (site.dispatch other tool) result
      unfold dispatch
      split <;> exact underWay
    | startTask index =>
      refine Or.inr ?_
      change UnderWay (site.startTask index) result
      unfold startTask
      split <;> exact underWay
    | finishTask index ended durationMs send =>
      refine Or.inr ?_
      change UnderWay (site.finishTask index ended durationMs send) result
      unfold finishTask
      split
      · exact underWay
      · exact underWay_of_post _ send.reached underWay
    | startSync reached =>
      refine Or.inr ?_
      change UnderWay (site.startSync reached) result
      unfold startSync
      split
      · exact underWay
      · split
        · exact underWay_of_post _ reached underWay
        · exact underWay
    | finishSync index returned =>
      refine Or.inr ?_
      change UnderWay (site.finishSync index returned) result
      unfold finishSync
      split
      · exact underWay
      · split
        · split <;> exact underWay
        · exact underWay
    | _ => exact .inr underWay

/-! ## Nothing is lost in a careful run -/

structure Covered (site : Site) : Prop where
  kept : ∀ result ∈ site.computed, Out site result ∨
    result ∈ site.worker.offlineQueue
  snapshots : ∀ sync ∈ site.syncs, sync.reached = true ->
    ∀ result ∈ sync.results, Out site result

theorem Covered.of_out (covered : Covered site) {after : Site}
    (out : ∀ result, Out site result -> Out after result)
    (computed : after.computed = site.computed) (queue : ∀ result ∈ site.worker.offlineQueue,
      Out after result ∨ result ∈ after.worker.offlineQueue)
    (syncs : ∀ sync ∈ after.syncs, sync ∈ site.syncs ∨
      (sync.reached = true -> ∀ result ∈ sync.results, Out after result)) : Covered after := by
  constructor
  · intro result member
    rcases covered.kept result (computed ▸ member) with already | queued
    · exact .inl (out result already)
    · exact queue result queued
  · intro sync member reached result carried
    rcases syncs sync member with old | new
    · exact out result (covered.snapshots sync old reached result carried)
    · exact new reached result carried

theorem covered_finishTask (orderly : Orderly site) (covered : Covered site) (index : Nat)
    (ended : ToolEnd) (durationMs : Int) (send : SendEnd)
    (careful : Careful site (.finishTask index ended durationMs send)) :
    Covered (site.finishTask index ended durationMs send) := by
  have out : ∀ result, Out site result ->
      Out (site.finishTask index ended durationMs send) result :=
    fun result already => out_step orderly _ careful already
  unfold finishTask at out ⊢
  cases here : site.running[index]? with
  | none => exact covered
  | some task =>
    rw [here] at out
    have fields := fun inner : Site =>
      @post_fields inner (site.worker.report (resultOf task ended durationMs)).1 send.reached
    constructor
    · intro result member
      rw [(fields _).2.2.2.1] at member
      rw [(fields _).1]
      change _ ∨ result ∈ (site.worker.report _).2.offlineQueue
      rw [offlineQueue_report]
      rcases List.mem_append.mp member with old | new
      · rcases covered.kept result old with already | queued
        · exact .inl (out result already)
        · refine Or.inr ?_
          split
          · exact queued
          · exact List.mem_append_left _ queued
      · cases connected : site.worker.connected with
        | true =>
          refine .inl (Or.inr ?_)
          simp only [message_report, connected, if_true, careful connected]
          refine underWay_posted ?_
          exact new
        | false =>
          refine Or.inr ?_
          exact List.mem_append_right _ new
    · intro sync member reached result carried
      rw [(fields _).2.2.1] at member
      exact out result (covered.snapshots sync member reached result carried)

theorem covered_startSync (orderly : Orderly site) (covered : Covered site) (reached : Bool)
    (careful : Careful site (.startSync reached)) : Covered (site.startSync reached) := by
  have out : ∀ result, Out site result -> Out (site.startSync reached) result :=
    fun result already => out_step orderly _ careful already
  unfold startSync at out ⊢
  split
  · exact covered
  case isFalse some_ =>
    rw [if_neg some_] at out
    cases connected : site.worker.connected with
    | false =>
      rw [careful connected] at some_
      exact absurd List.isEmpty_nil some_
    | true =>
      simp only [connected, if_true] at out ⊢
      have fields := fun inner : Site =>
        @post_fields inner (some site.worker.syncMessage) reached
      refine covered.of_out out (fields _).2.2.2.1 ?_ ?_
      · intro result queued
        rw [(fields _).1]
        exact .inr queued
      · intro sync member
        rw [(fields _).2.2.1] at member
        rcases List.mem_append.mp member with old | new
        · exact .inl old
        · refine Or.inr ?_
          rw [List.mem_singleton.mp new]
          intro gotOut result carried
          change reached = true at gotOut
          rw [gotOut]
          exact .inr (underWay_posted carried)

theorem covered_finishSync (orderly : Orderly site) (covered : Covered site) (index : Nat)
    (returned : Bool) (careful : Careful site (.finishSync index returned)) :
    Covered (site.finishSync index returned) := by
  have out : ∀ result, Out site result -> Out (site.finishSync index returned) result :=
    fun result already => out_step orderly _ careful already
  unfold finishSync at out ⊢
  cases here : site.syncs[index]? with
  | none => exact covered
  | some sync =>
    rw [here] at out
    cases returned with
    | false =>
      exact covered.of_out out rfl (fun _ queued => .inr queued)
        fun other member => .inl (List.mem_of_mem_eraseIdx member)
    | true =>
      cases reached : sync.reached with
      | false =>
        simp only [reached, if_true, Bool.false_eq_true, if_false]
        exact covered
      | true =>
        simp only [reached, if_true] at out ⊢
        refine covered.of_out out rfl ?_ fun other member =>
          .inl (List.mem_of_mem_eraseIdx member)
        intro result queued
        -- Everything queued is in the snapshot of this sync, whose message has got out.
        have inSnapshot := careful sync here reached result queued
        exact .inl (out result
          (covered.snapshots sync (List.mem_of_getElem? here) reached result inSnapshot))

theorem covered_step (orderly : Orderly site) (covered : Covered site) (input : SiteInput)
    (careful : Careful site input) : Covered (site.step input) := by
  have out : ∀ result, Out site result -> Out (site.step input) result :=
    fun result already => out_step orderly input careful already
  cases input with
  | finishTask index ended durationMs send =>
    exact covered_finishTask orderly covered index ended durationMs send careful
  | startSync reached => exact covered_startSync orderly covered reached careful
  | finishSync index returned => exact covered_finishSync orderly covered index returned careful
  | dispatch taskId tool =>
    change Covered (site.dispatch taskId tool)
    unfold dispatch
    split <;> exact ⟨covered.kept, covered.snapshots⟩
  | startTask index =>
    change Covered (site.startTask index)
    unfold startTask
    split <;> exact ⟨covered.kept, covered.snapshots⟩
  | roleUpdate role =>
    refine covered.of_out out rfl (fun _ queued => Or.inr ?_) fun _ member => .inl member
    change _ ∈ (site.worker.handleRoleUpdate role).offlineQueue
    unfold Worker.handleRoleUpdate
    split <;> exact queued
  | command action =>
    refine covered.of_out out rfl (fun _ queued => Or.inr ?_) fun _ member => .inl member
    change _ ∈ (site.worker.handleCommand action).offlineQueue
    unfold Worker.handleCommand
    split <;> exact queued
  | deliver index id timestamp ws now =>
    change Covered (site.deliver index id timestamp ws now)
    change ∀ result, _ -> Out (site.deliver index id timestamp ws now) result at out
    unfold deliver at out ⊢
    cases here : site.toCommander[index]? with
    | none => exact covered
    | some payload =>
      rw [here] at out
      exact covered.of_out out rfl (fun _ queued => .inr queued) fun _ member => .inl member
  | _ => exact covered.of_out out rfl (fun _ queued => .inr queued) fun _ member => .inl member

/-- In every run what is recorded for a task stays, and in every careful run no
result is lost. -/
theorem results_run (agentId : String) (inputs : List SiteInput) :
    (machine agentId).EveryStep FinalKept inputs ∧ ((machine agentId).EveryStep Careful inputs ->
        (machine agentId).EveryState NothingLost inputs) := by
  constructor
  · intro before input rest _
    exact finalKept_step ((machine agentId).invariant_after Orderly (orderly_initial agentId)
      (fun _ next orderly => orderly_step orderly next) before) input
  · intro careful before rest split
    have nothing : Covered { worker := { agentId := agentId } } := by
      constructor
      · intro result member
        exact (List.not_mem_nil member).elim
      · intro sync member
        exact (List.not_mem_nil member).elim
    have both := (machine agentId).guarded_everyState (fun site => Orderly site ∧ Covered site)
      Careful ⟨orderly_initial agentId, nothing⟩
      (fun _ input both guard =>
        ⟨orderly_step both.1 input, covered_step both.1 both.2 input guard⟩) inputs careful
    exact ⟨fun result member => or_assoc.mp ((both before rest split).2.kept result member)⟩

def syncedLater : List SiteInput :=
  [.dispatch "t1" "disk", .startTask 0, .finishTask 0 (.returned true "ok") 3 .returned, .connect,
    .startSync true, .finishSync 0 true, .deliver 0 "m1" "2026-01-01T00:00:00+00:00" 1 0]

theorem results_syncedLater : (machine "worker-1").EveryState NothingLost syncedLater := by
  refine (results_run "worker-1" syncedLater).2 ?_
  rw [Machine.everyStep_iff_stepsFrom]
  refine ⟨trivial, trivial, ?_, trivial, ?_, ?_, trivial, trivial⟩
  · intro connected
    cases connected
  · intro disconnected
    cases disconnected
  · intro sync here _ result queued
    cases here
    exact queued

def queuedMeanwhile : List SiteInput :=
  [.dispatch "t1" "disk", .dispatch "t2" "load", .startTask 0, .startTask 0,
    .finishTask 0 (.returned true "ok") 3 .returned, .connect, .startSync true, .disconnect,
    .finishTask 0 (.returned true "0.4") 5 .returned, .finishSync 0 true]

theorem result_lost : Not (∀ (agentId : String) (inputs : List SiteInput),
      (machine agentId).EveryStep FinalKept inputs ∧
        (machine agentId).EveryState NothingLost inputs) := by
  intro claim
  have nothing := (claim "worker-1" queuedMeanwhile).2 queuedMeanwhile [] (List.append_nil _).symm
  rcases nothing.kept ⟨"t2", "success", "0.4", some 5⟩ (by decide) with
    recorded | ⟨message, member, carried⟩ | queued
  · cases recorded
  · rw [List.mem_singleton.mp member] at carried
    exact absurd carried (by decide)
  · exact (List.not_mem_nil queued).elim

end Site

end Network
end BreadMind
