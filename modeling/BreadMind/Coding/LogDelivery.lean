import BreadMind.Coding.LogBuffer
import BreadMind.Execution.Machine

namespace BreadMind
namespace Coding

open Execution

/-!
# Delivery of the log lines

A line that has been numbered waits for the writer, lies in its buffer, has been
taken out by a worker, is handed over or is dropped, and it never is in two of
these places.  Read in this order, from the last to the first, the lines of a
phase stand in the order of their numbers.
-/

namespace LogStreaming

variable {config : LogConfig} {state : LogStreaming}

/-- The lines that may still be handed over, and those on their way to a buffer. -/
def onItsWay (state : LogStreaming) (key : PhaseKey) : List LogLine :=
  state.inFlight ++ (state.bufferOf key ++ (state.woken ++ state.waiters))

def Cleared (state : LogStreaming) (lines : List LogLine) : Prop :=
  ∀ line ∈ lines, ∀ key, line ∉ state.bufferOf key

structure Delivered (state : LogStreaming) : Prop where
  /-- Every line is at one place. -/
  once : ∀ line ∈ state.numbered,
    (state.handed ++ (state.dropped ++ state.onItsWay line.key)).count line = 1
  numbered : ∀ line ∈ state.handed ++ state.dropped, line ∈ state.numbered
  counted : state.counted = state.dropped.length
  ordered : ∀ key, (state.handed.filter (·.key = key)).Pairwise fun earlier later =>
    earlier.lineNo < later.lineNo
  unique : (state.numbered.map fun line => (line.key, line.lineNo)).Nodup
  cleared : ∀ before ∈ state.returned, state.Cleared before

/-- Nothing is buffered, or the worker that the buffer knows of will take it. -/
def Stoppable (state : LogStreaming) : Prop :=
  (∀ key, state.bufferOf key = []) ∨
    ∃ task ∈ state.tasks, state.handle = some task.name ∧
      task.worker.drainsAgain = true

/-- The numbers of a phase go up and no line overtakes another one, a waiting
append is not cancelled, there is one worker, and it is stopped while it works. -/
def Orderly (config : LogConfig) (state : LogStreaming) (input : Input) : Prop :=
  0 ≤ config.perPhaseCap ∧
    match input with
    | .append job step _ =>
      (state.unfinished = 0 -> ∀ line ∈ state.woken, line.key ≠ { job, step }) ∧
        ∀ line ∈ state.numbered, line.key = { job, step } ->
          line.lineNo ≤ state.counters { job, step }
    | .cancel line => line ∉ state.woken ++ state.waiters
    | .start => state.started = true ∨ state.tasks = []
    | .stop => state.Stoppable
    | _ => True

def machine (config : LogConfig) : Machine LogStreaming Input where
  initial := {}
  step := next config

/-! ## The way of a phase -/

def way (state : LogStreaming) (key : PhaseKey) (buffer : List LogLine) : List LogLine :=
  (state.handed ++ state.inFlight).filter (·.key = key) ++
    (buffer ++ (state.woken ++ state.waiters).filter (·.key = key))

/-- All that was numbered and not dropped is on the way, in the order of its numbers. -/
structure InOrder (key : PhaseKey) (way dropped numbered : List LogLine) : Prop where
  whole : (way ++ dropped.filter (·.key = key)).Perm (numbered.filter (·.key = key))
  sorted : way.Pairwise fun earlier later => earlier.lineNo < later.lineNo

def Flowing (state : LogStreaming) (key : PhaseKey) (buffer : List LogLine) : Prop :=
  InOrder key (state.way key buffer) state.dropped state.numbered

structure Keyed (entries : Dict PhaseKey (List LogLine)) : Prop where
  lines : ∀ entry ∈ entries, ∀ line ∈ entry.2, line.key = entry.1
  distinct : entries.keys.Nodup

def Settling (state : LogStreaming) (call : StopCall) : Prop :=
  call.before ⊆ state.appended ∧
    (state.Cleared call.before ∨ ∃ task ∈ state.tasks, task.name = call.task ∧
        task.worker.drainsAgain = true)

structure Sound (state : LogStreaming) : Prop where
  keyed : Keyed state.buffers
  single : AtMostOne (fun _ => True) state.tasks
  flowing : ∀ key, state.Flowing key (state.bufferOf key)
  unique : (state.numbered.map fun line => (line.key, line.lineNo)).Nodup
  arrived : (state.appended ++ (state.woken ++ state.waiters)).Perm state.numbered
  idle : state.unfinished = 0 -> state.waiters = []
  counted : state.counted = state.dropped.length
  settling : ∀ call ∈ state.stops, state.Settling call
  cleared : ∀ before ∈ state.returned,
    before ⊆ state.appended ∧ state.Cleared before

theorem count_phase (lines : List LogLine) (line : LogLine) :
    (lines.filter (·.key = line.key)).count line = lines.count line :=
  List.count_filter (p := fun other : LogLine => decide (other.key = line.key)) (decide_eq_true rfl)

variable {line : LogLine} {key : PhaseKey}

theorem phase_cons_of_eq (same : line.key = key) (rest : List LogLine) :
    (line :: rest).filter (·.key = key) = line :: rest.filter (·.key = key) :=
  List.filter_cons_of_pos (p := fun other : LogLine => decide (other.key = key)) (decide_eq_true same)

theorem phase_cons_of_ne (different : line.key ≠ key)
    (rest : List LogLine) : (line :: rest).filter (·.key = key) = rest.filter (·.key = key) :=
  List.filter_cons_of_neg (p := fun other : LogLine => decide (other.key = key))
    fun here => different (of_decide_eq_true here)

theorem Sound.delivered (sound : state.Sound) : state.Delivered where
  __ := sound
  once line member := by
    have nodup : state.numbered.Nodup := List.Nodup.of_map _ sound.unique
    have here := (sound.flowing line.key).whole.count_eq line
    have single : (state.numbered.filter (·.key = line.key)).count line = 1 := by
      rw [count_phase]
      exact List.count_eq_one_of_mem nodup member
    rw [single] at here
    unfold way at here
    simp only [List.count_append, count_phase] at here
    unfold onItsWay
    simp only [List.count_append]
    omega
  numbered line member := by
    have whole := (sound.flowing line.key).whole
    have inWay : line ∈ state.way line.key (state.bufferOf line.key) ++
        state.dropped.filter (·.key = line.key) := by
      rcases List.mem_append.mp member with handed | dropped
      · refine List.mem_append_left _ (List.mem_append_left _ (List.mem_filter.mpr ⟨?_, ?_⟩))
        · exact List.mem_append_left _ handed
        · exact decide_eq_true rfl
      · exact List.mem_append_right _ (List.mem_filter.mpr ⟨dropped, decide_eq_true rfl⟩)
    exact (List.mem_filter.mp (whole.mem_iff.mp inWay)).1
  ordered key := by
    have sorted := (sound.flowing key).sorted
    unfold way at sorted
    rw [List.filter_append, List.append_assoc] at sorted
    exact (List.pairwise_append.mp sorted).1
  cleared before member := (sound.cleared before member).2

theorem Keyed.tail {entry : PhaseKey × List LogLine} {rest : Dict PhaseKey (List LogLine)}
    (keyed : Keyed (entry :: rest)) : Keyed rest where
  lines other member := keyed.lines other (List.mem_cons_of_mem entry member)
  distinct := (List.nodup_cons.mp keyed.distinct).2

variable {entries : Dict PhaseKey (List LogLine)}

theorem Keyed.filter_eq_nil (keyed : Keyed entries)
    (absent : key ∉ entries.keys) (chosen : PhaseKey × List LogLine -> Bool) :
    (((entries.filter chosen).map Prod.snd).flatten).filter (·.key = key) = [] := by
  refine List.filter_eq_nil_iff.mpr ?_
  intro line member same
  rcases List.mem_flatten.mp member with ⟨lines, inPayloads, inside⟩
  rcases List.mem_map.mp inPayloads with ⟨entry, inEntries, rfl⟩
  have here := (List.mem_filter.mp inEntries).1
  have named := (keyed.lines entry here line inside).symm.trans (of_decide_eq_true same)
  exact absent (List.mem_map.mpr ⟨entry, here, named⟩)

theorem Keyed.filter_eq_self (keyed : Keyed entries)
    {entry : PhaseKey × List LogLine} (member : entry ∈ entries) :
    entry.2.filter (·.key = entry.1) = entry.2 :=
  List.filter_eq_self.mpr fun line inside => decide_eq_true (keyed.lines entry member line inside)

def emptied (chosen : PhaseKey × List LogLine -> Bool) (entries : Dict PhaseKey (List LogLine)) :
    Dict PhaseKey (List LogLine) :=
  entries.map fun entry => if chosen entry then (entry.1, []) else entry

theorem keys_emptied (chosen : PhaseKey × List LogLine -> Bool)
    (entries : Dict PhaseKey (List LogLine)) : (emptied chosen entries).keys = entries.keys := by
  unfold emptied Dict.keys
  rw [List.map_map]
  refine List.map_congr_left fun entry _ => ?_
  change Prod.fst (if chosen entry then (entry.1, []) else entry) = entry.1
  split <;> rfl

theorem taken_emptied (keyed : Keyed entries)
    (chosen : PhaseKey × List LogLine -> Bool) (key : PhaseKey) :
    (((entries.filter chosen).map Prod.snd).flatten).filter (·.key = key) ++
        ((emptied chosen entries).lookup key).getD [] = (entries.lookup key).getD [] := by
  induction entries with
  | nil => rfl
  | cons entry rest ih =>
    have later := ih keyed.tail
    have self := keyed.filter_eq_self (List.mem_cons_self (a := entry) (l := rest))
    have apart := (List.nodup_cons.mp keyed.distinct).1
    change _ ++ (((if chosen entry then (entry.1, []) else entry) ::
      emptied chosen rest).lookup key).getD [] = _
    by_cases same : key = entry.1
    · subst same
      have none_ := keyed.tail.filter_eq_nil apart chosen
      cases taken : chosen entry with
      | true =>
        rw [List.filter_cons_of_pos taken, List.map_cons, List.flatten_cons, List.filter_append]
        rw [none_, self, if_pos rfl, List.lookup_cons_self, List.append_nil]
        rw [List.lookup_cons, beq_self_eq_true]
        exact List.append_nil _
      | false =>
        rw [List.filter_cons_of_neg (by rw [taken]; exact Bool.false_ne_true), none_]
        rw [if_neg Bool.false_ne_true, List.lookup_cons, List.lookup_cons, beq_self_eq_true]
        rfl
    · have other := beq_false_of_ne same
      have skipped : (entry.2).filter (·.key = key) = [] := by
        refine List.filter_eq_nil_iff.mpr fun line inside here => same ?_
        exact (of_decide_eq_true here).symm.trans
          (keyed.lines entry List.mem_cons_self line inside)
      have passed : (entry :: rest).lookup key = rest.lookup key := by
        rw [List.lookup_cons, other]
      rw [passed, ← later]
      cases taken : chosen entry with
      | true =>
        rw [List.filter_cons_of_pos taken, List.map_cons, List.flatten_cons, List.filter_append]
        rw [skipped, if_pos rfl, List.lookup_cons, other]
        rfl
      | false =>
        rw [List.filter_cons_of_neg (by rw [taken]; exact Bool.false_ne_true)]
        rw [if_neg Bool.false_ne_true, List.lookup_cons, other]

variable (config) in
theorem bufferOf_drained (keyed : Keyed state.buffers) (aged : PhaseKey -> Bool) (key : PhaseKey) :
    (state.payloads config aged).flatten.filter (·.key = key) ++
      (state.drained config aged).bufferOf key = state.bufferOf key :=
  taken_emptied keyed (state.due config aged) key

theorem keyed_drained (keyed : Keyed state.buffers) (aged : PhaseKey -> Bool) :
    Keyed (state.drained config aged).buffers where
  lines entry member line inside := by
    rcases List.mem_map.mp member with ⟨old, inOld, rfl⟩
    split at inside
    · cases inside
    case isFalse kept =>
      rw [if_neg kept]
      exact keyed.lines old inOld line inside
  distinct := by
    have same : (state.drained config aged).buffers.keys = state.buffers.keys :=
      keys_emptied (state.due config aged) state.buffers
    rw [same]
    exact keyed.distinct

theorem bufferOf_drained_of_stopping (stopping : state.stopSet = true) (aged : PhaseKey -> Bool)
    (key : PhaseKey) : (state.drained config aged).bufferOf key = [] := by
  unfold bufferOf
  cases found : (state.drained config aged).buffers.lookup key with
  | none => rfl
  | some lines =>
    rcases List.mem_map.mp (Dict.mem_of_lookup found) with ⟨entry, _, same⟩
    split at same
    · cases same
      rfl
    case isFalse kept =>
      cases same
      unfold due at kept
      rw [stopping, Bool.true_or, Bool.true_or, Bool.true_or, Bool.and_true] at kept
      cases lines with
      | nil => rfl
      | cons line rest => exact absurd rfl kept

/-! ## A turn of the worker -/

def outside (state : LogStreaming) : LogStreaming :=
  { state with buffers := [], forced := [], flushFailed := 0, tasks := [], handed := [] }

/-- A turn moves lines on without changing their order.  If it was the last drain
of a worker nothing is left. -/
structure Turn (before after : LogStreaming) : Prop where
  outside : after.outside = before.outside
  keyed : Keyed after.buffers
  single : AtMostOne (fun _ => True) after.tasks
  taken : ∀ key, (after.handed ++ after.inFlight).filter (·.key = key) ++ after.bufferOf key =
    (before.handed ++ before.inFlight).filter (·.key = key) ++ before.bufferOf key
  shrinks : ∀ key, after.bufferOf key ⊆ before.bufferOf key
  drains : (∀ key, after.bufferOf key = []) ∨
    ∀ task ∈ before.tasks, task.worker.drainsAgain = true ->
      ∃ later ∈ after.tasks, later.name = task.name ∧
        later.worker.drainsAgain = true

variable {after : LogStreaming}

theorem Turn.trans {before between : LogStreaming} (first : Turn before between)
    (second : Turn between after) : Turn before after where
  outside := second.outside.trans first.outside
  keyed := second.keyed
  single := second.single
  taken key := (second.taken key).trans (first.taken key)
  shrinks key := List.Subset.trans (second.shrinks key) (first.shrinks key)
  drains := by
    rcases second.drains with empty | later
    · exact .inl empty
    rcases first.drains with empty | earlier
    · refine .inl fun key => List.eq_nil_iff_forall_not_mem.mpr fun line member => ?_
      have was := second.shrinks key member
      rw [empty key] at was
      cases was
    · refine .inr fun task member again => ?_
      rcases earlier task member again with ⟨between, inBetween, sameName, stillAgain⟩
      rcases later between inBetween stillAgain with ⟨last, inLast, lastName, lastAgain⟩
      exact ⟨last, inLast, lastName.trans sameName, lastAgain⟩

section OneWorker

variable {task : WorkerTask} (alone : state.tasks = [task])
include alone

theorem inFlight_alone : state.inFlight = task.worker.unhanded := by
  unfold inFlight
  rw [alone]
  exact List.append_nil task.worker.unhanded

theorem tasks_setWorker (worker : Worker) :
    (state.setWorker 0 worker).tasks = [{ task with worker }] := by
  change state.tasks.modify 0 _ = _
  rw [alone]
  rfl

theorem tasks_endWorker : (state.endWorker 0).tasks = [] := by
  change state.tasks.eraseIdx 0 = _
  rw [alone]
  rfl

theorem drained_alone (aged : PhaseKey -> Bool) : (state.drained config aged).tasks = [task] := alone

theorem single_setWorker (worker : Worker) :
    AtMostOne (fun _ => True) (state.setWorker 0 worker).tasks := by
  rw [tasks_setWorker alone]
  exact atMostOne_one trivial

theorem turn_drain (keyed : Keyed state.buffers) (nothing : task.worker.unhanded = [])
    (aged : PhaseKey -> Bool) {last : Bool} (finally_ : last = true -> state.stopSet = true) :
    Turn state ((state.drained config aged).setWorker 0
      (.flushing (state.payloads config aged) last)) where
  outside := rfl
  keyed := keyed_drained keyed aged
  single := single_setWorker (drained_alone alone aged) _
  taken key := by
    have now : ((state.drained config aged).setWorker 0
        (.flushing (state.payloads config aged) last)).inFlight =
          (state.payloads config aged).flatten :=
      inFlight_alone (tasks_setWorker (drained_alone alone aged) _)
    change (state.handed ++ _).filter _ ++ (state.drained config aged).bufferOf key = _
    rw [now, inFlight_alone alone, nothing, List.append_nil, List.filter_append, List.append_assoc]
    rw [bufferOf_drained config keyed]
  shrinks key := by
    change (state.drained config aged).bufferOf key ⊆ _
    rw [← bufferOf_drained config keyed aged key]
    exact List.subset_append_right _ _
  drains := by
    cases last with
    | true => exact .inl (bufferOf_drained_of_stopping (finally_ rfl) aged)
    | false =>
      refine .inr fun other member again => ?_
      rw [alone] at member
      cases List.mem_singleton.mp member
      rw [tasks_setWorker (drained_alone alone aged)]
      exact ⟨_, List.mem_singleton_self _, rfl, rfl⟩

theorem turn_drained (keyed : Keyed state.buffers) (aged : PhaseKey -> Bool)
    (none_ : state.payloads config aged = []) : Turn state (state.drained config aged) where
  outside := rfl
  keyed := keyed_drained keyed aged
  single := by
    change AtMostOne _ state.tasks
    rw [alone]
    exact atMostOne_one trivial
  taken key := by
    change (state.handed ++ state.inFlight).filter _ ++ _ = _
    rw [← bufferOf_drained config keyed aged key, none_]
    rfl
  shrinks key := by
    rw [← bufferOf_drained config keyed aged key]
    exact List.subset_append_right _ _
  drains := .inr fun other member again => ⟨other, member, rfl, again⟩

/-- A worker comes to its end, after a last drain unless it has had that. -/
theorem turn_endWorker (keyed : Keyed state.buffers) (nothing : task.worker.unhanded = [])
    (finally_ : task.worker.drainsAgain = true -> ∀ key, state.bufferOf key = []) :
    Turn state (state.endWorker 0) where
  outside := rfl
  keyed := keyed
  single := by
    rw [tasks_endWorker alone]
    exact atMostOne_nil
  taken key := by
    have now : (state.endWorker 0).inFlight = [] := by
      unfold inFlight
      rw [tasks_endWorker alone]
      rfl
    change (state.handed ++ _).filter _ ++ state.bufferOf key = _
    rw [now, inFlight_alone alone, nothing]
  shrinks key := List.Subset.refl _
  drains := by
    by_cases again : task.worker.drainsAgain = true
    · exact .inl (finally_ again)
    · refine .inr fun other member still => ?_
      rw [alone] at member
      cases List.mem_singleton.mp member
      exact absurd still again

theorem turn_lastDrain (keyed : Keyed state.buffers) (nothing : task.worker.unhanded = [])
    (stopping : state.stopSet = true) (aged : PhaseKey -> Bool) :
    Turn state (state.lastDrain config aged 0) := by
  unfold lastDrain
  split
  case isTrue none_ =>
    have drained := turn_drained alone keyed aged (List.isEmpty_iff.mp none_)
    refine drained.trans (turn_endWorker alone drained.keyed nothing fun _ => ?_)
    exact bufferOf_drained_of_stopping stopping aged
  · exact turn_drain alone keyed nothing aged fun _ => stopping

theorem turn_loopTop (keyed : Keyed state.buffers) (nothing : task.worker.unhanded = [])
    (aged : PhaseKey -> Bool) : Turn state (state.loopTop config aged 0) := by
  unfold loopTop
  split
  case isTrue stopping => exact turn_lastDrain alone keyed nothing stopping aged
  · exact {
      outside := rfl
      keyed := keyed
      single := single_setWorker alone _
      taken := fun key => by
        have now : (state.setWorker 0 .looping).inFlight = [] :=
          inFlight_alone (tasks_setWorker alone _)
        change (state.handed ++ _).filter _ ++ state.bufferOf key = _
        rw [now, inFlight_alone alone, nothing]
      shrinks := fun key => List.Subset.refl _
      drains := .inr fun other member _ => by
        rw [alone] at member
        cases List.mem_singleton.mp member
        rw [tasks_setWorker alone]
        exact ⟨_, List.mem_singleton_self _, rfl, rfl⟩ }

theorem turn_wake (keyed : Keyed state.buffers) (nothing : task.worker.unhanded = [])
    (aged : PhaseKey -> Bool) : Turn state (state.wake config aged 0) := by
  unfold wake
  split
  case isTrue none_ =>
    have drained := turn_drained alone keyed aged (List.isEmpty_iff.mp none_)
    exact drained.trans
      (turn_loopTop (drained_alone alone aged) drained.keyed nothing aged)
  · exact turn_drain alone keyed nothing aged nofun

theorem turn_hand (keyed : Keyed state.buffers) {payload : List LogLine}
    {rest : List (List LogLine)} {last : Bool}
    (flushing : task.worker = .flushing (payload :: rest) last) (outcome : Option PyError) :
    Turn state (state.hand 0 payload rest last outcome) where
  outside := rfl
  keyed := keyed
  single := single_setWorker alone _
  taken key := by
    have now : (state.hand 0 payload rest last outcome).inFlight = rest.flatten :=
      inFlight_alone (tasks_setWorker alone _)
    change ((state.handed ++ payload) ++ _).filter _ ++ state.bufferOf key = _
    rw [now, inFlight_alone alone, flushing, List.append_assoc]
    rfl
  shrinks key := List.Subset.refl _
  drains := .inr fun other member again => by
    rw [alone] at member
    cases List.mem_singleton.mp member
    rw [flushing] at again
    refine ⟨{ task with worker := .flushing rest last }, ?_, rfl, again⟩
    change _ ∈ (state.setWorker 0 (.flushing rest last)).tasks
    rw [tasks_setWorker alone]
    exact List.mem_singleton_self _

end OneWorker

theorem turn_refl (keyed : Keyed state.buffers)
    (single : AtMostOne (fun _ => True) state.tasks) : Turn state state where
  outside := rfl
  keyed := keyed
  single := single
  taken _ := rfl
  shrinks _ := List.Subset.refl _
  drains := .inr fun task member again => ⟨task, member, rfl, again⟩

theorem turn_run (keyed : Keyed state.buffers)
    (single : AtMostOne (fun _ => True) state.tasks) (index : Nat) (aged : PhaseKey -> Bool)
    (outcome : Option PyError) : Turn state (state.run config index aged outcome) := by
  unfold run
  cases here : state.tasks[index]? with
  | none => exact turn_refl keyed single
  | some task =>
    rcases single.only here with ⟨alone, rfl, _⟩
    rcases task with ⟨name, worker⟩
    cases worker with
    | created => exact turn_loopTop alone keyed rfl aged
    | looping => exact turn_wake alone keyed rfl aged
    | flushing unhanded last =>
      cases unhanded with
      | cons payload rest => exact turn_hand alone keyed rfl outcome
      | nil =>
        cases last with
        | true => exact turn_endWorker alone keyed rfl nofun
        | false => exact turn_loopTop alone keyed rfl aged

theorem Turn.same (turn : Turn state after) {Field : Type}
    (field : LogStreaming -> Field) : field after.outside = field state.outside :=
  congrArg field turn.outside

theorem Turn.way (turn : Turn state after) (key : PhaseKey) :
    after.way key (after.bufferOf key) = state.way key (state.bufferOf key) := by
  have woken : after.woken = state.woken := turn.same LogStreaming.woken
  have waiters : after.waiters = state.waiters := turn.same LogStreaming.waiters
  unfold LogStreaming.way
  rw [woken, waiters, ← List.append_assoc, ← List.append_assoc, turn.taken key]

theorem Turn.cleared (turn : Turn state after) {lines : List LogLine}
    (cleared : state.Cleared lines) : after.Cleared lines :=
  fun line member key buffered => cleared line member key (turn.shrinks key buffered)

theorem Sound.turn (sound : state.Sound) (turn : Turn state after) : after.Sound := by
  have numbered : after.numbered = state.numbered := turn.same LogStreaming.numbered
  have dropped : after.dropped = state.dropped := turn.same LogStreaming.dropped
  have appended : after.appended = state.appended := turn.same LogStreaming.appended
  have woken : after.woken = state.woken := turn.same LogStreaming.woken
  have waiters : after.waiters = state.waiters := turn.same LogStreaming.waiters
  have stops : after.stops = state.stops := turn.same LogStreaming.stops
  have returned : after.returned = state.returned := turn.same LogStreaming.returned
  refine {
    keyed := turn.keyed
    single := turn.single
    flowing := fun key => ?_
    unique := numbered ▸ sound.unique
    arrived := ?_
    idle := fun finished =>
      waiters.trans (sound.idle ((turn.same LogStreaming.unfinished).symm.trans finished))
    counted := ?_
    settling := fun call member => ?_
    cleared := fun before member => ?_ }
  · have flowing := sound.flowing key
    constructor
    · rw [turn.way, numbered, dropped]
      exact flowing.whole
    · rw [turn.way]
      exact flowing.sorted
  · rw [appended, woken, waiters, numbered]
    exact sound.arrived
  · rw [dropped, ← sound.counted]
    exact turn.same LogStreaming.counted
  · rw [stops] at member
    rcases sound.settling call member with ⟨earlier, settles⟩
    refine ⟨appended ▸ earlier, ?_⟩
    rcases settles with cleared | ⟨task, inTasks, named, again⟩
    · exact .inl (turn.cleared cleared)
    rcases turn.drains with empty | drains
    · refine .inl fun line _ key buffered => ?_
      rw [empty key] at buffered
      cases buffered
    · rcases drains task inTasks again with ⟨later, inLater, sameName, stillAgain⟩
      exact .inr ⟨later, inLater, sameName.trans named, stillAgain⟩
  · rw [returned] at member
    rcases sound.cleared before member with ⟨earlier, cleared⟩
    exact ⟨appended ▸ earlier, turn.cleared cleared⟩

/-! ## A line reaches its buffer -/

section Keep

variable {line : LogLine}

variable {key : PhaseKey}

theorem key_of_mem_bufferOf (keyed : Keyed state.buffers) {line : LogLine}
    (member : line ∈ state.bufferOf key) : line.key = key := by
  unfold bufferOf at member
  cases found : state.buffers.lookup key with
  | none =>
    rw [found] at member
    cases member
  | some lines =>
    rw [found] at member
    exact keyed.lines _ (Dict.mem_of_lookup found) line member

def arriving (state : LogStreaming) (line : LogLine) : List LogLine :=
  state.bufferOf line.key ++ [line]

def excess (config : LogConfig) (state : LogStreaming) (line : LogLine) : Nat :=
  (((state.arriving line).length : Int) - config.perPhaseCap).toNat

theorem key_of_mem_arriving (keyed : Keyed state.buffers) {other : LogLine}
    (member : other ∈ state.arriving line) : other.key = line.key := by
  rcases List.mem_append.mp member with buffered | new
  · exact key_of_mem_bufferOf keyed buffered
  · rw [List.mem_singleton.mp new]

theorem bufferOf_keep (key : PhaseKey) : (state.keep config line).bufferOf key =
    if key = line.key then (state.arriving line).drop (state.excess config line)
    else state.bufferOf key := by
  unfold keep bufferOf
  rw [Dict.lookup_set]
  split <;> rfl

theorem bufferOf_keep_self : (state.keep config line).bufferOf line.key =
    (state.arriving line).drop (state.excess config line) := by
  rw [bufferOf_keep, if_pos rfl]

theorem mem_bufferOf_keep {other : LogLine}
    (member : other ∈ (state.keep config line).bufferOf key) :
    other = line ∨ other ∈ state.bufferOf key := by
  rw [bufferOf_keep] at member
  split at member
  case isTrue same =>
    rcases List.mem_append.mp (List.mem_of_mem_drop member) with buffered | new
    · exact .inr (same ▸ buffered)
    · exact .inl (List.mem_singleton.mp new)
  · exact .inr member

theorem dropped_keep : (state.keep config line).dropped =
    state.dropped ++ (state.arriving line).take (state.excess config line) := rfl

variable (state) in
theorem keyed_keep (keyed : Keyed state.buffers) : Keyed (state.keep config line).buffers where
  lines entry member other inside := by
    rcases Dict.mem_set member with rfl | old
    · exact key_of_mem_arriving keyed (List.mem_of_mem_drop inside)
    · exact keyed.lines entry old other inside
  distinct := Dict.nodup_set keyed.distinct _ _

variable (state) in
theorem counted_keep (enough : 0 ≤ config.perPhaseCap)
    (counted : state.counted = state.dropped.length) :
    (state.keep config line).counted = (state.keep config line).dropped.length := by
  have now : (state.keep config line).counted =
      state.counted + max (((state.arriving line).length : Int) - config.perPhaseCap) 0 := rfl
  rw [now, dropped_keep, List.length_append, List.length_take, counted]
  unfold excess
  omega

variable (state) in
theorem flowing_keep_self (keyed : Keyed state.buffers)
    (flowing : state.Flowing line.key (state.arriving line)) :
    (state.keep config line).Flowing line.key ((state.keep config line).bufferOf line.key) := by
  rw [bufferOf_keep_self]
  constructor
  · have own : ((state.arriving line).take (state.excess config line)).filter (·.key = line.key) =
        (state.arriving line).take (state.excess config line) :=
      List.filter_eq_self.mpr fun other member =>
        decide_eq_true (key_of_mem_arriving keyed (List.mem_of_mem_take member))
    rw [dropped_keep, List.filter_append, own]
    refine List.Perm.trans (List.perm_iff_count.mpr fun other => ?_) flowing.whole
    have parts := congrArg (List.count other)
      (List.take_append_drop (state.excess config line) (state.arriving line))
    rw [List.count_append] at parts
    change List.count other (state.way line.key _ ++ _) = _
    unfold way
    simp only [List.count_append]
    omega
  · refine flowing.sorted.sublist ?_
    refine List.Sublist.append_left (List.Sublist.append_right ?_ _) _
    exact List.drop_sublist _ _

variable (state) in
theorem flowing_keep_of_ne (keyed : Keyed state.buffers)
    (different : key ≠ line.key) (flowing : state.Flowing key (state.bufferOf key)) :
    (state.keep config line).Flowing key ((state.keep config line).bufferOf key) := by
  rw [bufferOf_keep, if_neg different]
  constructor
  · have others : ((state.arriving line).take (state.excess config line)).filter (·.key = key) =
        [] := by
      refine List.filter_eq_nil_iff.mpr fun other member here => different ?_
      have own := key_of_mem_arriving keyed (List.mem_of_mem_take member)
      exact (of_decide_eq_true here).symm.trans own
    rw [dropped_keep, List.filter_append, others, List.append_nil]
    exact flowing.whole
  · exact flowing.sorted

end Keep

theorem Sound.keep {rest : List LogLine} (sound : state.Sound)
    (enough : 0 ≤ config.perPhaseCap) (front : state.woken = line :: rest) :
    ({ state with woken := rest }.keep config line).Sound := by
  have arrived : (state.appended ++ (line :: (rest ++ state.waiters))).Perm state.numbered := by
    have before := sound.arrived
    rw [front] at before
    exact before
  have new : line ∉ state.appended := by
    intro member
    have nodup := arrived.nodup_iff.mpr (List.Nodup.of_map _ sound.unique)
    exact List.disjoint_of_nodup_append nodup member List.mem_cons_self
  have cleared {lines : List LogLine} (earlier : lines ⊆ state.appended)
      (was : state.Cleared lines) :
      ({ state with woken := rest }.keep config line).Cleared lines := by
    intro other member key buffered
    rcases mem_bufferOf_keep buffered with rfl | old
    · exact new (earlier member)
    · exact was other member key old
  refine {
    keyed := keyed_keep { state with woken := rest } sound.keyed
    single := sound.single
    flowing := fun key => ?_
    unique := sound.unique
    arrived := ?_
    idle := sound.idle
    counted := counted_keep { state with woken := rest } enough sound.counted
    settling := fun call member => ?_
    cleared := fun before member => ?_ }
  · have flowing := sound.flowing key
    by_cases same : key = line.key
    · subst same
      refine flowing_keep_self { state with woken := rest } sound.keyed ?_
      have way : ({ state with woken := rest } : LogStreaming).way line.key
          (({ state with woken := rest } : LogStreaming).arriving line) =
            state.way line.key (state.bufferOf line.key) := by
        unfold LogStreaming.way arriving
        rw [front, List.cons_append, phase_cons_of_eq rfl]
        rw [List.append_assoc _ [line]]
        rfl
      exact ⟨way ▸ flowing.whole, way ▸ flowing.sorted⟩
    · refine flowing_keep_of_ne { state with woken := rest } sound.keyed same ?_
      have way : ({ state with woken := rest } : LogStreaming).way key (state.bufferOf key) =
          state.way key (state.bufferOf key) := by
        unfold LogStreaming.way
        rw [front, List.cons_append, phase_cons_of_ne fun here => same here.symm]
        rfl
      exact ⟨way ▸ flowing.whole, way ▸ flowing.sorted⟩
  · refine List.Perm.trans (List.Perm.of_eq ?_) arrived
    exact (List.append_assoc state.appended [line] _)
  · rcases sound.settling call member with ⟨earlier, settles⟩
    exact ⟨List.Subset.trans earlier (List.subset_append_left _ _),
      settles.imp_left (cleared earlier)⟩
  · rcases sound.cleared before member with ⟨earlier, was⟩
    exact ⟨List.Subset.trans earlier (List.subset_append_left _ _), cleared earlier was⟩

/-! ## A line gets its number -/

theorem perm_of_phases {first second : List LogLine}
    (same : ∀ key, first.filter (·.key = key) = second.filter (·.key = key)) :
    first.Perm second := by
  refine List.perm_iff_count.mpr fun line => ?_
  rw [← count_phase first, ← count_phase second, same]

theorem Sound.numbering (sound : state.Sound)
    (fresh : ∀ other ∈ state.numbered, other.key = line.key ->
      other.lineNo < line.lineNo) (counters : PhaseKey -> Nat) {woken waiters : List LogLine}
    (order : ∀ key, (woken ++ waiters).filter (·.key = key) =
      ((state.woken ++ state.waiters) ++ [line]).filter (·.key = key))
    (idle : state.unfinished = 0 -> waiters = []) :
    ({ state with counters, woken, waiters, numbered := state.numbered ++ [line] }
      : LogStreaming).Sound := by
  refine { sound with flowing := fun key => ?_, unique := ?_, arrived := ?_, idle := idle }
  · have flowing := sound.flowing key
    let later : LogStreaming :=
      { state with counters, woken, waiters, numbered := state.numbered ++ [line] }
    have way : later.way key (state.bufferOf key) =
        state.way key (state.bufferOf key) ++ [line].filter (·.key = key) := by
      unfold LogStreaming.way
      rw [order key, List.filter_append _ [line]]
      simp only [List.append_assoc]
      rfl
    constructor
    · change (later.way key (state.bufferOf key) ++ state.dropped.filter _).Perm
        ((state.numbered ++ [line]).filter _)
      rw [way, List.filter_append _ [line]]
      refine List.Perm.trans ?_ (flowing.whole.append_right _)
      rw [List.append_assoc, List.append_assoc]
      exact List.perm_append_comm.append_left _
    · change (later.way key (state.bufferOf key)).Pairwise _
      rw [way]
      refine List.pairwise_append.mpr ⟨flowing.sorted, ?_, ?_⟩
      · exact (List.pairwise_singleton _ line).filter _
      · intro other inWay new inNew
        rcases List.mem_filter.mp inNew with ⟨isLine, sameKey⟩
        cases List.mem_singleton.mp isLine
        have inWhole := flowing.whole.mem_iff.mp (List.mem_append_left _ inWay)
        rcases List.mem_filter.mp inWhole with ⟨inNumbered, otherKey⟩
        exact fresh other inNumbered
          ((of_decide_eq_true otherKey).trans (of_decide_eq_true sameKey).symm)
  · change ((state.numbered ++ [line]).map _).Nodup
    rw [List.map_append]
    refine List.Nodup.append sound.unique (List.nodup_singleton _) ?_
    refine List.disjoint_singleton.mpr fun member => ?_
    rcases List.mem_map.mp member with ⟨other, inNumbered, same⟩
    have sameKey : other.key = line.key := congrArg Prod.fst same
    have sameNumber : other.lineNo = line.lineNo := congrArg Prod.snd same
    exact absurd sameNumber (Nat.ne_of_lt (fresh other inNumbered sameKey))
  · change (state.appended ++ (woken ++ waiters)).Perm (state.numbered ++ [line])
    refine List.Perm.trans ((perm_of_phases order).append_left _) ?_
    rw [← List.append_assoc]
    exact sound.arrived.append_right [line]

theorem sound_append (sound : state.Sound) {job : String} {step : Int} {text : String}
    (orderly : Orderly config state (.append job step text)) :
    (state.append config job step text).Sound := by
  rcases orderly with ⟨enough, quiet, below⟩
  let line : LogLine := { job, step, lineNo := state.counters { job, step } + 1, text }
  have fresh : ∀ other ∈ state.numbered, other.key = line.key ->
      other.lineNo < line.lineNo :=
    fun other member same => Nat.lt_succ_of_le (below other member same)
  unfold append
  split
  case isTrue finished =>
    -- The line passes at the head of the queue, where nothing of its phase waits.
    have none_ := sound.idle finished
    suffices passing : ({ state with
        counters := Function.update state.counters { job, step } (state.counters { job, step } + 1)
        numbered := state.numbered ++ [line]
        woken := line :: state.woken } : LogStreaming).Sound from passing.keep enough rfl
    refine sound.numbering fresh _ (fun key => ?_) fun _ => none_
    rw [none_, List.append_nil, List.append_nil, List.filter_append]
    by_cases same : line.key = key
    · have empty : state.woken.filter (·.key = key) = [] :=
        List.filter_eq_nil_iff.mpr fun other member here =>
          quiet finished other member ((of_decide_eq_true here).trans same.symm)
      rw [phase_cons_of_eq same, phase_cons_of_eq same, empty]
      rfl
    · rw [phase_cons_of_ne same, phase_cons_of_ne same]
      exact (List.append_nil _).symm
  case isFalse busy =>
    refine sound.numbering fresh _ (fun key => ?_) (absurd · busy)
    rw [List.append_assoc]

/-! ## The other tasks -/

theorem sound_resume (sound : state.Sound) (enough : 0 ≤ config.perPhaseCap) :
    (state.resume config).Sound := by
  unfold resume
  cases front : state.woken with
  | nil => exact sound
  | cons line rest => exact sound.keep enough front

theorem sound_taskDone (sound : state.Sound) : state.taskDone.Sound := by
  unfold taskDone
  split
  · have order : state.woken ++ state.waiters ++ [] = state.woken ++ state.waiters :=
      List.append_nil _
    refine { sound with flowing := fun key => ?_, arrived := ?_, idle := fun _ => rfl }
    · have flowing := sound.flowing key
      have way : ({ state with
          unfinished := 0, waiters := [], woken := state.woken ++ state.waiters }
          : LogStreaming).way key (state.bufferOf key) = state.way key (state.bufferOf key) := by
        unfold way
        rw [order]
        rfl
      exact ⟨way ▸ flowing.whole, way ▸ flowing.sorted⟩
    · change (state.appended ++ (state.woken ++ state.waiters ++ [])).Perm state.numbered
      rw [order]
      exact sound.arrived
  case isFalse several =>
    refine { sound with idle := fun finished => sound.idle ?_ }
    have less : state.unfinished - 1 = 0 := finished
    omega

theorem sound_cancel (sound : state.Sound)
    (absent : line ∉ state.woken ++ state.waiters) : (next config state (.cancel line)).Sound := by
  change ({ state with waiters := state.waiters.erase line, woken := state.woken.erase line }
    : LogStreaming).Sound
  rw [List.erase_of_not_mem fun member => absent (List.mem_append_right _ member)]
  rw [List.erase_of_not_mem fun member => absent (List.mem_append_left _ member)]
  exact sound

theorem sound_start (sound : state.Sound) (orderly : state.started = true ∨ state.tasks = []) :
    state.start.Sound := by
  unfold start
  split
  · exact sound
  case isFalse fresh =>
    have none_ := orderly.resolve_left fresh
    rw [none_]
    refine {
      keyed := sound.keyed
      single := atMostOne_one trivial
      flowing := fun key => ?_
      unique := sound.unique
      arrived := sound.arrived
      idle := sound.idle
      counted := sound.counted
      settling := fun call member => ?_
      cleared := sound.cleared }
    · have flowing := sound.flowing key
      have idle : state.inFlight = [] := by
        unfold inFlight
        rw [none_]
        rfl
      unfold Flowing LogStreaming.way at flowing
      rw [idle] at flowing
      exact flowing
    · rcases sound.settling call member with ⟨earlier, cleared | ⟨task, inTasks, _⟩⟩
      · exact ⟨earlier, .inl cleared⟩
      · rw [none_] at inTasks
        cases inTasks

theorem sound_stop (sound : state.Sound) (stoppable : state.Stoppable) : state.stop.Sound := by
  have empty (all : ∀ key, state.bufferOf key = []) : state.Cleared state.appended := by
    intro line _ key buffered
    rw [all key] at buffered
    cases buffered
  unfold stop
  split
  case h_1 unknown =>
    refine { sound with cleared := fun before member => ?_ }
    rcases List.mem_append.mp member with old | new
    · exact sound.cleared before old
    · cases List.mem_singleton.mp new
      refine ⟨List.Subset.refl _, ?_⟩
      rcases stoppable with all | ⟨task, _, known, _⟩
      · exact empty all
      · cases unknown.symm.trans known
  case h_2 name known =>
    refine { sound with settling := fun call member => ?_ }
    rcases List.mem_append.mp member with old | new
    · exact sound.settling call old
    · cases List.mem_singleton.mp new
      refine ⟨List.Subset.refl _, ?_⟩
      rcases stoppable with all | ⟨task, inTasks, named, again⟩
      · exact .inl (empty all)
      · exact .inr ⟨task, inTasks, Option.some.inj (named.symm.trans known), again⟩

theorem sound_stopReturns (sound : state.Sound) (index : Nat) : (state.stopReturns index).Sound := by
  unfold stopReturns
  cases here : state.stops[index]? with
  | none => exact sound
  | some call =>
    change (if _ then state else _ : LogStreaming).Sound
    split
    · exact sound
    case isFalse ended =>
      refine { sound with settling := fun other member => ?_, cleared := fun before member => ?_ }
      · exact sound.settling other (List.mem_of_mem_eraseIdx member)
      rcases List.mem_append.mp member with old | new
      · exact sound.cleared before old
      · cases List.mem_singleton.mp new
        have settling := sound.settling call (List.mem_of_getElem? here)
        refine ⟨settling.1, settling.2.resolve_right ?_⟩
        rintro ⟨task, inTasks, named, _⟩
        exact ended (List.any_eq_true.mpr ⟨task, inTasks, beq_iff_eq.mpr named⟩)

theorem sound_next (sound : state.Sound) {input : Input} (orderly : Orderly config state input) :
    (next config state input).Sound := by
  cases input with
  | append job step text => exact sound_append sound orderly
  | resume => exact sound_resume sound orderly.1
  | cancel line => exact sound_cancel sound orderly.2
  | resetPhase key => exact { sound with }
  | evictJob job => exact { sound with }
  | schedule => exact { sound with idle := nofun }
  | taskDone => exact sound_taskDone sound
  | forceFlush key => exact { sound with }
  | start => exact sound_start sound orderly.2
  | run index aged outcome => exact sound.turn (turn_run sound.keyed sound.single index aged outcome)
  | stop => exact sound_stop sound orderly.2
  | stopReturns index => exact sound_stopReturns sound index

theorem sound_initial (config : LogConfig) : (machine config).initial.Sound where
  keyed :=
    { lines := fun _ member => by cases member
      distinct := List.nodup_nil }
  single := atMostOne_nil
  flowing _ := ⟨List.Perm.refl _, List.Pairwise.nil⟩
  unique := List.nodup_nil
  arrived := List.Perm.refl _
  idle _ := rfl
  counted := rfl
  settling _ member := by cases member
  cleared _ member := by cases member

/-- In every orderly run each line is delivered once, in its place, and nothing
stays behind a `stop`. -/
theorem delivered_of_orderly (config : LogConfig) (inputs : List Input)
    (orderly : (machine config).EveryStep (Orderly config) inputs) :
    (machine config).EveryState Delivered inputs := by
  intro before rest split
  have sound := (machine config).guarded_everyState Sound (Orderly config) (sound_initial config)
    (fun _ _ sound => sound_next sound) inputs orderly
  exact (sound before rest split).delivered

def always : PhaseKey -> Bool := fun _ => true

def twoLines : List Input :=
  [.append "job" 1 "first", .append "job" 1 "second", .start, .run 0 always none, .stop,
    .run 0 always none, .run 0 always none, .run 0 always none, .stopReturns 0]

theorem delivered_of_orderly_twoLines : (machine {}).EveryState Delivered twoLines := by
  refine delivered_of_orderly {} twoLines ((Machine.everyStep_iff_stepsFrom _ _ _).mpr ?_)
  refine ⟨⟨by decide, And.intro (fun _ _ member => absurd member List.not_mem_nil)
      fun _ member => absurd member List.not_mem_nil⟩,
    ⟨by decide, And.intro (fun _ _ member => absurd member List.not_mem_nil) (by decide)⟩,
    ⟨by decide, .inr rfl⟩, ⟨by decide, trivial⟩, ⟨by decide, Or.inr ?_⟩, ⟨by decide, trivial⟩,
    ⟨by decide, trivial⟩, ⟨by decide, trivial⟩, ⟨by decide, trivial⟩, trivial⟩
  exact ⟨{ name := 0, worker := .looping }, List.mem_singleton_self _, rfl, rfl⟩

def overtaken : List Input :=
  [.schedule, .append "job" 1 "first", .taskDone, .append "job" 1 "second", .resume, .start,
    .run 0 always none, .run 0 always none, .run 0 always none]

theorem line_overtaken : Not (∀ config inputs, (machine config).EveryState Delivered inputs) := by
  intro claimed
  have delivered := (claimed {} overtaken).last
  have handed : (((machine {}).after overtaken).handed.filter
      (·.key = { job := "job", step := 1 })).map LogLine.lineNo = [2, 1] := by decide
  have ordered := List.pairwise_map.mpr (delivered.ordered { job := "job", step := 1 })
  rw [handed] at ordered
  exact absurd ordered (by decide)

end LogStreaming

end Coding
end BreadMind
