import BreadMind.AgentLoop.MessageLoop
import BreadMind.Execution.Dict
import BreadMind.Execution.ForkJoin

namespace BreadMind
namespace AgentLoop

open Agent (ToolCall)
open Execution

/-!
# Batches of tool calls

`execute_batch` runs consecutive calls of readonly tools together and every
other call by itself.  The executors are coroutines of the event loop, which
read and write the state of the world; what they return, or an `Exception` which
they raise, becomes the result of the call.  A cancellation would leave the batch
and is not among their outcomes here.

The tables of the registry do not change while a batch runs.
-/

structure ToolDefinition where
  name : String
  readonly : Bool := false

structure HybridToolRegistry (State Output Failure : Type) where
  tools : Dict String ToolDefinition
  executors : Dict String (Json -> Coroutine State (Except Failure Output))

/-- `str` of what executors return, which may raise itself, and of the exceptions. -/
structure Texts (Output Failure : Type) where
  str : Output -> Except Failure String
  message : Failure -> String

def Texts.failed {Output Failure : Type} (texts : Texts Output Failure) (failure : Failure) :
    ToolResult :=
  ⟨false, "", some (texts.message failure)⟩

def Texts.result {Output Failure : Type} (texts : Texts Output Failure) :
    Except Failure Output -> ToolResult
  | .error failure => texts.failed failure
  | .ok output =>
    match texts.str output with
    | .error failure => texts.failed failure
    | .ok text => ⟨true, text, none⟩

namespace HybridToolRegistry

variable {State Output Failure : Type} (registry : HybridToolRegistry State Output Failure)
  (texts : Texts Output Failure)

def isReadonly (call : ToolCall) : Bool :=
  match registry.tools.lookup call.name with
  | some tool => tool.readonly
  | none => false

def execute (call : ToolCall) : Coroutine State ToolResult :=
  match registry.executors.lookup call.name with
  | none => .finished ⟨false, "", some ("No executor for tool '" ++ call.name ++ "'")⟩
  | some executor => (executor call.arguments).map texts.result

structure Grouping where
  batches : List (List (Nat × ToolCall)) := []
  currentBatch : List (Nat × ToolCall) := []
  currentIsReadonly : Option Bool := none

def Grouping.flush (grouping : Grouping) : List (List (Nat × ToolCall)) :=
  if grouping.currentBatch.isEmpty then grouping.batches
  else grouping.batches ++ [grouping.currentBatch]

def group (grouping : Grouping) (entry : Nat × ToolCall) : Grouping :=
  if registry.isReadonly entry.2 then
    if grouping.currentIsReadonly = some true then
      { grouping with currentBatch := grouping.currentBatch ++ [entry] }
    else ⟨grouping.flush, [entry], some true⟩
  else ⟨grouping.flush, [entry], some false⟩

def enumerate (calls : List ToolCall) : List (Nat × ToolCall) :=
  calls.zipIdx.map Prod.swap

def batches (calls : List ToolCall) : List (List (Nat × ToolCall)) :=
  ((enumerate calls).foldl registry.group {}).flush

variable (batch : List (Nat × ToolCall))

/-- A batch of one call, or whose first tool is not readonly, is awaited call
by call; the calls of another batch are gathered. -/
def waves : List (List (Nat × ToolCall)) :=
  if batch.length = 1 || !(batch.head?.any fun entry => registry.isReadonly entry.2) then
    batch.map fun entry => [entry]
  else [batch]

def bodies (wave : List (Nat × ToolCall)) : List (Nat × Coroutine State ToolResult) :=
  wave.map fun entry => (entry.1, registry.execute texts entry.2)

def executeBatch (calls : List ToolCall) (shared : State) :
    Machine (ForkJoin Nat State ToolResult) ForkJoin.Move :=
  ForkJoin.machine shared (((registry.batches calls).flatMap registry.waves).map (registry.bodies texts))

/-- `[results[i] for i in range(len(calls))]`, where every index has been put. -/
def returned (calls : List ToolCall) (state : ForkJoin Nat State ToolResult) :
    Option (List ToolResult) :=
  (List.range calls.length).mapM fun index => state.results.lookup index

def executeAll : List ToolCall -> State -> State × List ToolResult
  | [], shared => (shared, [])
  | call :: rest, shared =>
    let first := (registry.execute texts call).run shared
    let others := executeAll rest first.1
    (others.1, first.2 :: others.2)

/-- The executors of the tools marked readonly change nothing that an executor reads. -/
def ReadonlyQuiet : Prop :=
  ∀ call executor, registry.isReadonly call = true ->
    registry.executors.lookup call.name = some executor -> (executor call.arguments).Quiet

/-! ## The batches cover the calls in their order -/

def Uniform : Prop :=
  batch.length ≤ 1 ∨ ∀ entry ∈ batch, registry.isReadonly entry.2 = true

structure Grouped (seen : List (Nat × ToolCall)) (grouping : Grouping) : Prop where
  covers : grouping.batches.flatten ++ grouping.currentBatch = seen
  uniform : ∀ batch ∈ grouping.batches, registry.Uniform batch
  readonly : grouping.currentIsReadonly = some true ->
    ∀ entry ∈ grouping.currentBatch, registry.isReadonly entry.2 = true
  single : grouping.currentIsReadonly ≠ some true -> grouping.currentBatch.length ≤ 1

variable {registry texts}

variable {seen : List (Nat × ToolCall)} {grouping : Grouping}

theorem Grouped.current
    (grouped : registry.Grouped seen grouping) : registry.Uniform grouping.currentBatch := by
  by_cases mode : grouping.currentIsReadonly = some true
  · exact .inr (grouped.readonly mode)
  · exact .inl (grouped.single mode)

theorem flatten_flush (grouping : Grouping) :
    grouping.flush.flatten = grouping.batches.flatten ++ grouping.currentBatch := by
  unfold Grouping.flush
  split
  case isTrue empty => rw [List.isEmpty_iff.1 empty, List.append_nil]
  case isFalse => rw [List.flatten_append, List.flatten_singleton]

theorem Grouped.flush (grouped : registry.Grouped seen grouping) :
    ∀ batch ∈ grouping.flush, registry.Uniform batch := by
  intro batch member
  unfold Grouping.flush at member
  split at member
  · exact grouped.uniform batch member
  · rcases List.mem_append.1 member with old | new
    · exact grouped.uniform batch old
    · rw [List.mem_singleton.1 new]
      exact grouped.current

theorem grouped_group (entry : Nat × ToolCall) (grouped : registry.Grouped seen grouping) :
    registry.Grouped (seen ++ [entry]) (registry.group grouping entry) := by
  have fresh : grouping.flush.flatten ++ [entry] = seen ++ [entry] := by
    rw [flatten_flush, grouped.covers]
  unfold group
  split
  case isTrue marked =>
    split
    case isTrue mode =>
      refine ⟨?_, grouped.uniform, fun _ other member => ?_, fun differs => absurd mode differs⟩
      · change grouping.batches.flatten ++ (grouping.currentBatch ++ [entry]) = _
        rw [← List.append_assoc, grouped.covers]
      · rcases List.mem_append.1 member with old | new
        · exact grouped.readonly mode other old
        · rw [List.mem_singleton.1 new]
          exact marked
    case isFalse =>
      refine ⟨fresh, grouped.flush, fun _ other member => ?_, fun differs => absurd rfl differs⟩
      rw [List.mem_singleton.1 member]
      exact marked
  case isFalse => exact ⟨fresh, grouped.flush, fun mode => (nomatch mode), fun _ => Nat.le_refl 1⟩

theorem grouped_foldl (entries seen : List (Nat × ToolCall)) (grouping : Grouping)
    (grouped : registry.Grouped seen grouping) :
    registry.Grouped (seen ++ entries) (entries.foldl registry.group grouping) := by
  induction entries generalizing seen grouping with
  | nil => rwa [List.append_nil]
  | cons entry rest ih =>
    have step := ih _ _ (grouped_group entry grouped)
    rwa [List.append_assoc] at step

theorem grouped_all (calls : List ToolCall) :
    registry.Grouped (enumerate calls) ((enumerate calls).foldl registry.group {}) :=
  grouped_foldl _ [] {} ⟨rfl, fun _ member => absurd member List.not_mem_nil,
    fun mode => (nomatch mode), fun _ => Nat.zero_le 1⟩

theorem flatten_waves : (registry.waves batch).flatten = batch := by
  have singles : (batch.map fun entry => [entry]).flatten = batch := by
    induction batch with
    | nil => rfl
    | cons entry rest ih => exact congrArg (entry :: ·) ih
  unfold waves
  split
  · exact singles
  · exact List.flatten_singleton

variable {wave : List (Nat × ToolCall)}

theorem uniform_waves {batch : List (Nat × ToolCall)} (uniform : registry.Uniform batch)
    (member : wave ∈ registry.waves batch) : registry.Uniform wave := by
  unfold waves at member
  split at member
  · rcases List.mem_map.1 member with ⟨entry, _, rfl⟩
    exact .inl (Nat.le_refl 1)
  · rwa [List.mem_singleton.1 member]

theorem flatten_batches (calls : List ToolCall) :
    ((registry.batches calls).flatMap registry.waves).flatten = enumerate calls := by
  have one : ∀ batches : List (List (Nat × ToolCall)),
      (batches.flatMap registry.waves).flatten = batches.flatten := by
    intro batches
    induction batches with
    | nil => rfl
    | cons batch rest ih =>
      rw [List.flatMap_cons, List.flatten_append, flatten_waves, ih, List.flatten_cons]
  rw [one, batches, flatten_flush]
  exact (grouped_all calls).covers

variable {calls : List ToolCall}

theorem uniform_batches
    (member : wave ∈ (registry.batches calls).flatMap registry.waves) : registry.Uniform wave := by
  rcases List.mem_flatMap.1 member with ⟨batch, among, inside⟩
  exact uniform_waves ((grouped_all calls).flush batch among) inside

theorem keys_enumerate (calls : List ToolCall) :
    (enumerate calls).map Prod.fst = List.range calls.length := by
  unfold enumerate
  rw [List.map_map]
  exact (List.zipIdx_map_snd 0 calls).trans List.range_eq_range'.symm

theorem calls_enumerate (calls : List ToolCall) : (enumerate calls).map Prod.snd = calls := by
  unfold enumerate
  rw [List.map_map]
  exact List.zipIdx_map_fst 0 calls

theorem mem_enumerate {entry : Nat × ToolCall}
    (member : entry ∈ enumerate calls) : calls[entry.1]? = some entry.2 := by
  rcases List.mem_map.1 member with ⟨pair, among, rfl⟩
  exact (List.mem_zipIdx_iff_getElem?.1 among)

theorem length_executeAll (calls : List ToolCall) (shared : State) :
    (registry.executeAll texts calls shared).2.length = calls.length := by
  induction calls generalizing shared with
  | nil => rfl
  | cons call rest ih => exact congrArg (· + 1) (ih _)

theorem runAll_executeAll (entries : List (Nat × ToolCall)) (shared : State) :
    ForkJoin.runAll (registry.bodies texts entries) shared =
      ((registry.executeAll texts (entries.map Prod.snd) shared).1,
        (entries.map Prod.fst).zip (registry.executeAll texts (entries.map Prod.snd) shared).2) := by
  induction entries generalizing shared with
  | nil => rfl
  | cons entry rest ih =>
    have others := ih ((registry.execute texts entry.2).run shared).1
    unfold bodies at others ⊢
    simp only [List.map_cons, ForkJoin.runAll, executeAll, List.zip_cons_cons, others]

theorem bodies_flatten (waves : List (List (Nat × ToolCall))) :
    (waves.map (registry.bodies texts)).flatten = registry.bodies texts waves.flatten := by
  unfold bodies
  exact List.map_flatten.symm

theorem plan_bodies (waves : List (List (Nat × ToolCall))) :
    ForkJoin.plan (waves.map (registry.bodies texts)) = waves.map fun wave => wave.map Prod.fst := by
  unfold ForkJoin.plan bodies
  rw [List.map_map]
  refine List.map_congr_left fun wave _ => ?_
  rw [Function.comp_apply, List.map_map]
  rfl

theorem quiet_execute (quiet : registry.ReadonlyQuiet) {call : ToolCall}
    (marked : registry.isReadonly call = true) : (registry.execute texts call).Quiet := by
  unfold execute
  split
  · trivial
  case h_2 executor found => exact (quiet call executor marked found).map texts.result

theorem exclusive_bodies (texts : Texts Output Failure) (quiet : registry.ReadonlyQuiet)
    (calls : List ToolCall) : ∀ wave,
      wave ∈ ((registry.batches calls).flatMap registry.waves).map (registry.bodies texts) ->
      wave.length ≤ 1 ∨ ∀ entry ∈ wave, entry.2.Quiet := by
  intro wave member
  rcases List.mem_map.1 member with ⟨entries, among, rfl⟩
  rcases uniform_batches among with short | marked
  · left
    rwa [bodies, List.length_map]
  · right
    intro entry inside
    rcases List.mem_map.1 inside with ⟨origin, here, rfl⟩
    exact quiet_execute quiet (marked origin here)

theorem plan_flatten (calls : List ToolCall) :
    (ForkJoin.plan (((registry.batches calls).flatMap registry.waves).map
      (registry.bodies texts))).flatten = List.range calls.length := by
  rw [plan_bodies, ← List.map_flatten, flatten_batches, keys_enumerate]

/-! ## The batch against the sequential run -/

theorem passed_of_lt {passed behind : List (List (Nat × ToolCall))} {first second : Nat}
    (whole : (passed ++ wave :: behind).flatten = enumerate calls) (before : first < second)
    (bound : second < calls.length) (inside : second ∈ wave.map Prod.fst)
    (apart : first ∉ wave.map Prod.fst) :
    first ∈ (passed.map fun wave => wave.map Prod.fst).flatten := by
  have keys : (passed.map fun wave => wave.map Prod.fst).flatten ++ (wave.map Prod.fst ++
      (behind.map fun wave => wave.map Prod.fst).flatten) = List.range calls.length := by
    rw [← keys_enumerate, ← whole, ← List.map_flatten, ← List.map_flatten, ← List.map_append,
      ← List.map_append, List.flatten_append, List.flatten_cons]
  have sorted : (List.range calls.length).Pairwise (fun left right => left < right) :=
    List.pairwise_lt_range
  have member : first ∈ List.range calls.length := List.mem_range.2 (Nat.lt_trans before bound)
  rw [← keys] at sorted member
  rcases List.mem_append.1 member with done | later
  · exact done
  · rcases List.mem_append.1 later with same | waiting
    · exact (apart same).elim
    · have order := (List.pairwise_append.1 (List.pairwise_append.1 sorted).2.1).2.2
        second inside first waiting
      omega

theorem apart_of_writing {first second : Nat} {earlier later : ToolCall}
    (member : wave ∈ (registry.batches calls).flatMap registry.waves) (before : first < second)
    (atFirst : calls[first]? = some earlier) (atSecond : calls[second]? = some later)
    (writing : registry.isReadonly earlier = false ∨ registry.isReadonly later = false)
    (inside : second ∈ wave.map Prod.fst) : first ∉ wave.map Prod.fst := by
  intro shared
  have origin : ∀ entry ∈ wave, calls[entry.1]? = some entry.2 := by
    intro entry here
    refine mem_enumerate ?_
    rw [← flatten_batches calls]
    exact List.mem_flatten.2 ⟨wave, member, here⟩
  rcases List.mem_map.1 inside with ⟨second', hereSecond, rfl⟩
  rcases List.mem_map.1 shared with ⟨first', hereFirst, rfl⟩
  have sameFirst := Option.some.inj (atFirst.symm.trans (origin first' hereFirst))
  have sameSecond := Option.some.inj (atSecond.symm.trans (origin second' hereSecond))
  rcases uniform_batches member with short | marked
  · have same : first' = second' := by
      match wave, short with
      | [], _ => exact absurd hereFirst List.not_mem_nil
      | [only], _ => exact (List.mem_singleton.1 hereFirst).trans (List.mem_singleton.1 hereSecond).symm
    rw [same] at before
    exact Nat.lt_irrefl _ before
  · rcases writing with writes | writes
    · rw [sameFirst, marked first' hereFirst] at writes
      exact Bool.noConfusion writes
    · rw [sameSecond, marked second' hereSecond] at writes
      exact Bool.noConfusion writes

theorem returned_of_outcome {shared : State} {state : ForkJoin Nat State ToolResult}
    (sequential : state.outcome = ForkJoin.runAll (registry.bodies texts (enumerate calls)) shared)
    (ended : state.waves = []) :
    returned calls state = some (registry.executeAll texts calls shared).2 ∧
      state.shared = (registry.executeAll texts calls shared).1 := by
  rw [runAll_executeAll, calls_enumerate, keys_enumerate, ForkJoin.outcome, ended] at sequential
  rcases Prod.mk.inj sequential with ⟨world, results⟩
  refine ⟨?_, world⟩
  have put : state.results =
      (List.range calls.length).zip (registry.executeAll texts calls shared).2 :=
    (List.append_nil _).symm.trans results
  have size : (List.range calls.length).length = (registry.executeAll texts calls shared).2.length := by
    rw [List.length_range, length_executeAll]
  have keys : state.results.map Prod.fst = List.range calls.length := by
    rw [put, List.map_fst_zip (Nat.le_of_eq size)]
  have values : state.results.map Prod.snd = (registry.executeAll texts calls shared).2 := by
    rw [put, List.map_snd_zip (Nat.le_of_eq size.symm)]
  unfold returned
  rw [← keys, ← values]
  refine Dict.mapM_lookup ?_
  unfold Dict.keys
  rw [keys]
  exact List.nodup_range

/-- In every interleaving the results are those of the sequential run, every call runs
once, and one that is not readonly runs behind all earlier calls and before all later
ones. Every interleaving comes to an end. -/
theorem executeBatch_sequential (registry : HybridToolRegistry State Output Failure)
    (texts : Texts Output Failure) (quiet : registry.ReadonlyQuiet) (calls : List ToolCall)
    (shared : State) : (WellFounded fun later earlier : ForkJoin Nat State ToolResult =>
        ∃ move, earlier.attempt move = some later) ∧
      ∀ moves, let state := (registry.executeBatch texts calls shared).after moves
        (state.waves ≠ [] -> ∃ move, (state.attempt move).isSome) ∧
        (∀ first second earlier later, first < second ->
          calls[first]? = some earlier -> calls[second]? = some later ->
          registry.isReadonly earlier = false ∨ registry.isReadonly later = false ->
          ∀ before behind, state.events = before ++ .started second :: behind ->
            .finished first ∈ before) ∧
        (∀ index, ForkJoin.eventsOf index state.events <+: [.started index, .finished index]) ∧
        (state.waves = [] ->
          returned calls state = some (registry.executeAll texts calls shared).2 ∧
          state.shared = (registry.executeAll texts calls shared).1 ∧
          ∀ index < calls.length,
            ForkJoin.eventsOf index state.events = [.started index, .finished index]) := by
  refine ⟨Subrelation.wf (fun moves => moves.elim fun _ => ForkJoin.closer_of_attempt)
    ForkJoin.wellFounded_closer, fun moves => ?_⟩
  have sequential := ForkJoin.outcome_after shared _ (exclusive_bodies texts quiet calls) moves
  rw [bodies_flatten, flatten_batches] at sequential
  have distinct : (ForkJoin.plan (((registry.batches calls).flatMap registry.waves).map
      (registry.bodies texts))).flatten.Nodup := by
    rw [plan_flatten]
    exact List.nodup_range
  rcases ForkJoin.recorded_after shared _ distinct moves with ⟨joined, recorded⟩
  refine ⟨ForkJoin.attempt_isSome, ?_, recorded.eventsOf_prefix, fun ended => ?_⟩
  · intro first second earlier later order atFirst atSecond writing before behind split
    have bound : second < calls.length := (List.getElem?_eq_some_iff.1 atSecond).1
    have planned : second ∈ (((registry.batches calls).flatMap registry.waves).map
        fun wave => wave.map Prod.fst).flatten := by
      rw [← @plan_bodies _ _ _ registry texts, plan_flatten]
      exact List.mem_range.2 bound
    rcases List.mem_flatten.1 planned with ⟨keys, among, inside⟩
    rcases List.mem_map.1 among with ⟨wave, member, rfl⟩
    rcases List.append_of_mem member with ⟨passed, waiting, whole⟩
    have allowed := recorded.ordered before (.started second) behind split
      (passed.map fun wave => wave.map Prod.fst) (wave.map Prod.fst)
      (waiting.map fun wave => wave.map Prod.fst) (by
        rw [plan_bodies, whole, List.map_append, List.map_cons]) second inside rfl
    have covered : (passed ++ wave :: waiting).flatten = enumerate calls := by
      rw [← whole, flatten_batches]
    exact allowed first (passed_of_lt covered order bound inside
      (apart_of_writing member order atFirst atSecond writing inside))
  · have results := returned_of_outcome sequential ended
    refine ⟨results.1, results.2, fun index bound => recorded.eventsOf_end ended ?_⟩
    rw [plan_flatten]
    exact List.mem_range.2 bound

def counter : HybridToolRegistry Nat Nat String where
  tools := [("get", ⟨"get", true⟩), ("count", ⟨"count", false⟩)]
  executors := [("get", fun _ => .running id fun shared => .finished (.ok shared)),
    ("count", fun _ => .running (· + 1) fun shared => .finished (.ok shared))]

def decimal : Texts Nat String where
  str := fun number => .ok (String.ofList (Nat.toDigits 10 number))
  message := id

theorem counter_quiet : counter.ReadonlyQuiet := by
  intro call executor marked found
  unfold counter isReadonly at marked
  unfold counter at found
  by_cases get : call.name = "get"
  · rw [get] at found
    cases found
    exact ⟨fun _ => rfl, fun _ => trivial⟩
  · by_cases count : call.name = "count"
    · rw [count] at marked
      exact Bool.noConfusion marked
    · rw [List.lookup_cons, beq_false_of_ne get, List.lookup_cons, beq_false_of_ne count] at found
      cases found

/-- Both gathered calls are under way before either has finished. -/
theorem executeBatch_sequential_counter :
    returned [⟨"a", "get", .null⟩, ⟨"a", "get", .null⟩, ⟨"b", "count", .null⟩, ⟨"c", "get", .null⟩,
        ⟨"d", "delete", .null⟩]
      ((counter.executeBatch decimal [⟨"a", "get", .null⟩, ⟨"a", "get", .null⟩, ⟨"b", "count", .null⟩,
        ⟨"c", "get", .null⟩, ⟨"d", "delete", .null⟩] 6).after
        [.job 1, .job 0, .job 1, .job 0, .job 0, .job 1, .join, .job 0, .job 0, .job 0, .join,
          .job 0, .job 0, .job 0, .join, .job 0, .job 0, .join]) =
      some [⟨true, "6", none⟩, ⟨true, "6", none⟩, ⟨true, "6", none⟩, ⟨true, "7", none⟩,
        ⟨false, "", some "No executor for tool 'delete'"⟩] :=
  (((executeBatch_sequential counter decimal counter_quiet _ 6).2 _).2.2.2 rfl).1.trans rfl

end HybridToolRegistry
end AgentLoop
end BreadMind
