import BreadMind.Tools.SchemaSatisfaction
import BreadMind.Tools.ToolRegistry

namespace BreadMind

/-! ## Dictionaries in a fixed order -/

namespace Json

mutual

/-- The keys of every object stand in their order, so that equal dictionaries are
the same list. -/
def ordered : Json -> Bool
  | .arr items => orderedItems items
  | .obj fields => orderedFields fields
  | _ => true

def orderedItems : List Json -> Bool
  | [] => true
  | item :: rest => ordered item && orderedItems rest

def orderedFields : List (String × Json) -> Bool
  | [] => true
  | (name, value) :: rest =>
    ordered value && (rest.head?.all fun next => decide (name < next.1)) && orderedFields rest

end

end Json

namespace Tools
namespace ToolRegistry

open Agent (ToolResult)
open Execution Hooks

/-!
# Runs of the registry

A cached result is one that the tool of this name has given for these arguments,
as long as nothing is registered anew whose results are in the cache, and as
long as hooks and coercion leave the arguments of cacheable tools alone.
-/

/-- What the hooks before a tool say of a call, by its name and its arguments. -/
abbrev HookPolicy := String -> Dict String Json -> Except PyError ToolHookResult

/-- No two calls have the same key. -/
def CollisionFree {Key : Type} (config : RegistryConfig Key) : Prop :=
  ∀ name arguments other others key, (Json.obj arguments).ordered = true ->
    (Json.obj others).ordered = true -> config.makeKey name arguments = .ok key ->
      config.makeKey other others = .ok key -> name = other ∧ arguments = others

variable {Key : Type} [DecidableEq Key] (config : RegistryConfig Key) (policy : HookPolicy)

/-- What a call of this name would run. -/
def target (registry : ToolRegistry Key) (name : String) : Option ToolTarget :=
  match registry.tools.lookup name with
  | some func => some (.builtin func.object)
  | none =>
    match registry.mcpTools.lookup name, registry.mcpCallback with
    | some server, some callback => some (.mcp callback server (originalName name))
    | _, _ => none

def Uncached (registry : ToolRegistry Key) (name : String) : Prop :=
  ∀ arguments key, config.makeKey name arguments = .ok key -> registry.entries.lookup key = none

def cachedResult (registry : ToolRegistry Key) (call : RegistryCall) : Option ToolResult :=
  match cacheFor config call.name with
  | none => none
  | some settings =>
    match registry.cacheGet config call settings with
    | .ok (result, _) => result
    | .error _ => none

/-- The call passes the validation, and the hooks do not block it. -/
def Passes (registry : ToolRegistry Key) (call : RegistryCall) : Prop :=
  registry.validation config call = .ok none ∧ (config.hookRunner = true -> ∃ verdict,
    policy call.name call.arguments = .ok verdict ∧ verdict.action ≠ .block)

def Complete (registry : ToolRegistry Key) : Prop :=
  ∀ name, (registry.definitions.lookup name).isSome = true <->
    (registry.tools.lookup name).isSome = true ∨ (registry.mcpTools.lookup name).isSome = true

/-- A result from the cache has been given within its time by the tool now
registered, for just these arguments, and the call would pass now. -/
def CacheRight (registry : ToolRegistry Key) (past : List ToolRun) (call : RegistryCall) : Prop :=
  ∀ result, registry.cachedResult config call = some result ->
    registry.Passes config policy call ∧ ∃ run ∈ past, run.name = call.name ∧
      run.arguments = call.arguments ∧ registry.target call.name = some run.target ∧
      run.result = some result ∧
      ∀ settings, config.cache = some settings -> call.now - run.time < settings.ttl

namespace Operation

/-- The call is one whose hooks, arguments, tools and servers behave: the hooks before
a tool answer by the name and the arguments and do not raise, the arguments are not nested
too deep to be validated, those of a cacheable tool can be written down and reach the tool as
they are, a builtin tool is not cancelled, and a server answers. -/
structure OrderlyCall (registry : ToolRegistry Key) (call : RegistryCall) : Prop where
  ordered : (Json.obj call.arguments).ordered = true
  hooks : config.hookRunner = true ->
    call.preHooks = policy call.name call.arguments ∧ (∃ verdict, call.preHooks = .ok verdict)
  room : ∀ settings, cacheFor config call.name = some settings -> 0 < settings.maxSize
  key : ∀ settings, cacheFor config call.name = some settings ->
    ∃ key, config.makeKey call.name call.arguments = .ok key
  admitted : ∀ settings, cacheFor config call.name = some settings ->
    ∀ arguments, registry.admission config call = .admitted arguments -> arguments = call.arguments
  coerced : ∀ settings, cacheFor config call.name = some settings ->
    ∀ func arguments, registry.tools.lookup call.name = some func ->
      registry.builtinArguments config call func call.arguments = .ok arguments ->
        arguments = call.arguments
  shallow : ∀ defn, config.validator = true ->
    registry.definitions.lookup call.name = some defn ->
      SchemaValidator.memberFrames defn.parameters call.arguments ≤ config.frames
  builtin : ∀ func error, registry.tools.lookup call.name = some func ->
    ((∃ given, registry.admission config call = .admitted given ∧
        registry.builtinArguments config call func given = .error error) ∨
      call.output = .error error ∨
      (config.hookRunner = true ∧ call.postHooks = .error error)) -> error.isException = true
  server : registry.tools.lookup call.name = none ->
    (registry.mcpTools.lookup call.name).isSome = true -> registry.mcpCallback.isSome = true ->
      (∃ result, call.callback = .ok result) ∧
        (config.hookRunner = true -> ∃ context, call.postHooks = .ok context)

/-- Nothing is registered or removed whose results are cached, and no name is
removed from one table that is in the other. -/
def Orderly (registry : ToolRegistry Key) : Operation -> Prop
  | .register func => ∀ defn, func.definition = some defn -> registry.Uncached config defn.name
  | .unregister name => registry.Uncached config name ∧ registry.mcpTools.lookup name = none
  | .registerMcpTool definition _ callback =>
    registry.Uncached config definition.name ∧
      (callback.or registry.mcpCallback = registry.mcpCallback ∨ ∀ name,
        registry.tools.lookup name = none -> registry.Uncached config name)
  | .unregisterMcpTools server => ∀ name, registry.mcpTools.lookup name = some server ->
      registry.Uncached config name ∧ registry.tools.lookup name = none
  | .execute call => OrderlyCall config policy registry call

/-- A call answers with a result, and with one from the cache only where this is right. -/
def Right (registry : ToolRegistry Key) (past : List ToolRun) : Operation -> Prop
  | .execute call => (∃ result, (registry.execute config call).1 = .ok result) ∧
      registry.CacheRight config policy past call
  | _ => True

end Operation

def noteRun (registry : ToolRegistry Key) : Operation -> List ToolRun -> List ToolRun
  | .execute call, past => past ++ (registry.execute config call).2.2.toList
  | _, past => past

def recorded : Machine (ToolRegistry Key × List ToolRun) Operation :=
  (machine config).recording [] (noteRun config)

def Backed (registry : ToolRegistry Key) (past : List ToolRun) (key : Key) (time : Int)
    (result : ToolResult) : Prop :=
  ∃ run ∈ past, config.makeKey run.name run.arguments = .ok key ∧
    (Json.obj run.arguments).ordered = true ∧ registry.target run.name = some run.target ∧
    run.result = some result ∧ run.time = time ∧
    ∀ call : RegistryCall, call.name = run.name -> call.arguments = run.arguments ->
      registry.Passes config policy call

structure Kept (current : ToolRegistry Key × List ToolRun) : Prop where
  complete : current.1.Complete
  distinct : current.1.mcpTools.keys.Nodup
  backed : ∀ key time result, current.1.entries.lookup key = some (time, result) ->
    Backed config policy current.1 current.2 key time result

variable {config policy} {registry after : ToolRegistry Key} {past : List ToolRun}

structure SameName (registry after : ToolRegistry Key) (name : String) : Prop where
  tools : after.tools.lookup name = registry.tools.lookup name
  definitions : after.definitions.lookup name = registry.definitions.lookup name
  mcpTools : after.mcpTools.lookup name = registry.mcpTools.lookup name
  callback : after.mcpCallback = registry.mcpCallback ∨ (registry.tools.lookup name).isSome = true

omit [DecidableEq Key] in
theorem SameName.target {name : String} (same : SameName registry after name) :
    after.target name = registry.target name := by
  unfold ToolRegistry.target
  rw [same.tools, same.mcpTools]
  rcases same.callback with callback | builtin
  · rw [callback]
  · rcases Option.isSome_iff_exists.mp builtin with ⟨func, found⟩
    rw [found]

variable {call : RegistryCall}

omit [DecidableEq Key] in
theorem SameName.passes (same : SameName registry after call.name) :
    after.Passes config policy call <-> registry.Passes config policy call := by
  unfold Passes validation
  rw [same.definitions]

variable (after) in
theorem Backed.keep {key : Key} {time : Int} {result : ToolResult}
    (backed : Backed config policy registry past key time result)
    (present : registry.entries.lookup key = some (time, result))
    (same : ∀ name, Not (registry.Uncached config name) -> SameName registry after name)
    (more : List ToolRun) : Backed config policy after (past ++ more) key time result := by
  rcases backed with ⟨run, member, keyed, ordered, target, given, timed, passes⟩
  have here : SameName registry after run.name := by
    refine same run.name fun uncached => ?_
    rw [uncached run.arguments key keyed] at present
    cases present
  refine ⟨run, List.mem_append_left _ member, keyed, ordered, here.target.trans target, given, timed, ?_⟩
  intro call name arguments
  exact (SameName.passes (name ▸ here)).mpr (passes call name arguments)

/-! ## The tables change by one operation -/

theorem kept_register {func : ToolFunction} (kept : Kept config policy (registry, past))
    (orderly : Operation.Orderly config policy registry (.register func)) :
    Kept config policy (perform config registry (.register func), past) := by
  cases decorated : func.definition with
  | none => simpa only [perform, register, decorated, Except.toOption, Option.getD] using kept
  | some defn =>
    simp only [perform, register, decorated, Except.toOption, Option.getD]
    refine ⟨fun name => ?_, kept.distinct, fun key time result present => ?_⟩
    · by_cases same : name = defn.name
      · simp only [Dict.lookup_set, if_pos same, Option.isSome, true_or]
      · simpa only [Dict.lookup_set, if_neg same] using kept.complete name
    · have backed := (kept.backed key time result present).keep { registry with
          tools := Dict.set defn.name func registry.tools
          definitions := Dict.set defn.name defn registry.definitions } present ?_ []
      · rwa [List.append_nil] at backed
      · intro name cached
        have other : name ≠ defn.name := fun same => cached (same ▸ orderly defn decorated)
        exact ⟨Dict.lookup_set_of_ne _ other _, Dict.lookup_set_of_ne _ other _, rfl, .inl rfl⟩

theorem kept_unregister {removed : String} (kept : Kept config policy (registry, past))
    (orderly : Operation.Orderly config policy registry (.unregister removed)) :
    Kept config policy (perform config registry (.unregister removed), past) := by
  rcases orderly with ⟨uncached, notMcp⟩
  refine ⟨fun name => ?_, kept.distinct, fun key time result present => ?_⟩
  · simp only [perform, unregister, Dict.lookup_pop]
    split
    case isTrue same => simp only [same, notMcp, Option.isSome, Bool.false_eq_true, or_self]
    case isFalse different => exact kept.complete name
  · have backed := (kept.backed key time result present).keep
      (registry.unregister removed).2 present ?_ []
    · rwa [List.append_nil] at backed
    · intro name cached
      have other : name ≠ removed := fun same => cached (same ▸ uncached)
      exact ⟨Dict.lookup_pop_of_ne _ other, Dict.lookup_pop_of_ne _ other, rfl, .inl rfl⟩

variable {server : String}

theorem kept_registerMcpTool {definition : ToolDefinition}
    {callback : Option Nat} (kept : Kept config policy (registry, past))
    (orderly : Operation.Orderly config policy registry
      (.registerMcpTool definition server callback)) : Kept config policy
      (perform config registry (.registerMcpTool definition server callback), past) := by
  rcases orderly with ⟨uncached, sameCallback⟩
  refine ⟨fun name => ?_, Dict.nodup_set kept.distinct _ _, fun key time result present => ?_⟩
  · by_cases same : name = definition.name
    · simp only [perform, registerMcpTool, Dict.lookup_set, if_pos same, Option.isSome, or_true]
    · simpa only [perform, registerMcpTool, Dict.lookup_set, if_neg same] using kept.complete name
  · have backed := (kept.backed key time result present).keep
      (registry.registerMcpTool definition server callback) present ?_ []
    · rwa [List.append_nil] at backed
    · intro name cached
      have other : name ≠ definition.name := fun same => cached (same ▸ uncached)
      refine ⟨rfl, Dict.lookup_set_of_ne _ other _, Dict.lookup_set_of_ne _ other _, ?_⟩
      refine sameCallback.imp id fun unused => ?_
      exact Option.isSome_iff_ne_none.mpr fun notBuiltin => cached (unused name notBuiltin)

omit [DecidableEq Key] in
theorem mem_toRemove (distinct : registry.mcpTools.keys.Nodup) (server name : String) :
    name ∈ (registry.mcpTools.filter fun entry => decide (entry.2 = server)).map Prod.fst <->
      registry.mcpTools.lookup name = some server := by
  constructor
  · intro member
    rcases List.mem_map.mp member with ⟨⟨listed, owner⟩, kept, rfl⟩
    rcases List.mem_filter.mp kept with ⟨present, owned⟩
    exact Dict.lookup_of_mem distinct (of_decide_eq_true owned ▸ present)
  · intro found
    exact List.mem_map.mpr ⟨(name, server), List.mem_filter.mpr
      ⟨Dict.mem_of_lookup found, decide_eq_true rfl⟩, rfl⟩

theorem kept_unregisterMcpTools (kept : Kept config policy (registry, past))
    (orderly : Operation.Orderly config policy registry (.unregisterMcpTools server)) :
    Kept config policy (perform config registry (.unregisterMcpTools server), past) := by
  refine ⟨fun name => ?_, ?_, fun key time result present => ?_⟩
  · simp only [perform, unregisterMcpTools, Dict.lookup_foldl_pop, mem_toRemove kept.distinct]
    split
    case isTrue removed =>
      simp only [(orderly name removed).2, Option.isSome, Bool.false_eq_true, or_self]
    case isFalse other => exact kept.complete name
  · exact Dict.nodup_foldl_pop kept.distinct _
  · have backed := (kept.backed key time result present).keep
      (registry.unregisterMcpTools server) present ?_ []
    · rwa [List.append_nil] at backed
    · intro name cached
      have other : Not (name ∈
          (registry.mcpTools.filter fun entry => decide (entry.2 = server)).map Prod.fst) :=
        fun removed => cached (orderly name ((mem_toRemove kept.distinct server name).mp removed)).1
      refine ⟨rfl, ?_, ?_, .inl rfl⟩
      · exact (Dict.lookup_foldl_pop _ _ name).trans (if_neg other)
      · exact (Dict.lookup_foldl_pop _ _ name).trans (if_neg other)

/-! ## What a call leaves in the cache -/

variable (config policy) in
def Entered (registry : ToolRegistry Key) (call : RegistryCall) (run : Option ToolRun) (key : Key)
    (time : Int) (result : ToolResult) : Prop :=
  ∃ ran, run = some ran ∧ ran.name = call.name ∧ ran.arguments = call.arguments ∧
    registry.target call.name = some ran.target ∧ ran.result = some result ∧ ran.time = time ∧
    config.makeKey call.name call.arguments = .ok key ∧ registry.Passes config policy call

variable (config policy) in
/-- A call answers with a result, leaves the tables alone, and caches nothing but
the result of its own run. -/
structure Sound (registry : ToolRegistry Key) (call : RegistryCall) (answered : Answered Key) :
    Prop where
  answers : ∃ result, answered.1 = .ok result
  tables : answered.2.1 = { registry with entries := answered.2.1.entries }
  entries : ∀ key time result, answered.2.1.entries.lookup key = some (time, result) ->
    registry.entries.lookup key = some (time, result) ∨
      Entered config policy registry call answered.2.2 key time result

omit [DecidableEq Key] in
theorem oldestKey_ne_none {entries : Dict Key (Int × ToolResult)} (some' : entries ≠ []) :
    ∃ oldest, oldestKey entries = some oldest := by
  cases entries with
  | nil => exact absurd rfl some'
  | cons entry rest => exact ⟨_, rfl⟩

theorem makeRoom_ok (registry : ToolRegistry Key) {settings : CacheSettings}
    (positive : 0 < settings.maxSize) : ∃ entries, registry.makeRoom settings = .ok entries ∧
      ∀ key entry, entries.lookup key = some entry -> registry.entries.lookup key = some entry := by
  unfold makeRoom
  split
  case isTrue full =>
    have some' : registry.entries ≠ [] := fun empty => by
      rw [empty, List.length_nil] at full
      omega
    rcases oldestKey_ne_none some' with ⟨oldest, chosen⟩
    rw [chosen]
    exact ⟨_, rfl, fun key entry found => (Dict.lookup_of_pop found).2⟩
  case isFalse => exact ⟨_, rfl, fun key entry found => found⟩

variable (registry) in
theorem keep_ok
    (room : ∀ settings, cacheFor config call.name = some settings -> 0 < settings.maxSize)
    (keyed : ∀ settings, cacheFor config call.name = some settings ->
      ∃ key, config.makeKey call.name call.arguments = .ok key)
    {arguments : Dict String Json} (result : ToolResult)
    (same : ∀ settings, cacheFor config call.name = some settings -> arguments = call.arguments) :
    ∃ kept, registry.keep config call arguments result = (none, kept) ∧
      kept = { registry with entries := kept.entries } ∧
      ∀ key entry, kept.entries.lookup key = some entry ->
        registry.entries.lookup key = some entry ∨
          entry = (call.later, result) ∧ arguments = call.arguments ∧
            config.makeKey call.name call.arguments = .ok key := by
  unfold keep
  split
  case h_2 => exact ⟨registry, rfl, rfl, fun key entry found => .inl found⟩
  case h_1 settings cacheable =>
    split
    case isFalse => exact ⟨registry, rfl, rfl, fun key entry found => .inl found⟩
    case isTrue =>
      rcases keyed settings cacheable with ⟨here, digest⟩
      rcases makeRoom_ok registry (room settings cacheable) with ⟨entries, made, fewer⟩
      simp only [cacheSet, made, same settings cacheable, digest]
      refine ⟨_, rfl, rfl, fun key entry found => ?_⟩
      rw [Dict.lookup_set] at found
      split at found
      case isTrue this => exact .inr ⟨(Option.some.inj found).symm, trivial, this ▸ rfl⟩
      case isFalse => exact .inl (fewer key entry found)

omit [DecidableEq Key] in
theorem passes_of_admitted
    (orderly : Operation.OrderlyCall config policy registry call) {arguments : Dict String Json}
    (admitted : registry.admission config call = .admitted arguments) :
    registry.Passes config policy call := by
  unfold admission at admitted
  split at admitted
  case h_1 => cases admitted
  case h_2 => cases admitted
  case h_3 valid =>
    refine ⟨valid, fun hooked => ?_⟩
    rcases orderly.hooks hooked with ⟨policed, verdict, said⟩
    refine ⟨verdict, policed.symm.trans said, fun blocked => ?_⟩
    rw [if_pos hooked, said] at admitted
    simp only [blocked] at admitted
    cases admitted

theorem sound_of_keep (run : ToolRun) (result : ToolResult)
    (orderly : Operation.OrderlyCall config policy registry call)
    (named : run.name = call.name) (timed : run.time = call.later)
    (ran : registry.target call.name = some run.target)
    (same : ∀ settings, cacheFor config call.name = some settings ->
      run.arguments = call.arguments) (passes : registry.Passes config policy call) :
    ∃ kept, registry.keep config call run.arguments result = (none, kept) ∧
      Sound config policy registry call (.ok result, kept, some { run with result := some result }) := by
  rcases keep_ok registry orderly.room orderly.key result same with
    ⟨kept, keeps, tables, entries⟩
  refine ⟨kept, keeps, ⟨⟨result, rfl⟩, tables, fun key time cached found => ?_⟩⟩
  refine (entries key (time, cached) found).imp id fun entered => ?_
  rcases entered with ⟨entry, arguments, keyed⟩
  cases entry
  exact ⟨_, rfl, named, arguments, ran, rfl, timed, keyed, passes⟩

theorem sound_of_unchanged (registry : ToolRegistry Key) (call : RegistryCall) (result : ToolResult)
    (run : Option ToolRun) : Sound config policy registry call (.ok result, registry, run) :=
  ⟨⟨result, rfl⟩, rfl, fun _ _ _ found => .inl found⟩

omit [DecidableEq Key] in
theorem withContext_error {answer : ToolResult} {error : PyError}
    (raised : withContext config call answer = .error error) :
    config.hookRunner = true ∧ call.postHooks = .error error := by
  unfold withContext at raised
  split at raised
  case isTrue hooked =>
    cases said : call.postHooks with
    | error other =>
      rw [said] at raised
      cases raised
      exact ⟨hooked, rfl⟩
    | ok context =>
      rw [said] at raised
      cases raised
  case isFalse => cases raised

omit [DecidableEq Key] in
theorem validation_ok (orderly : Operation.OrderlyCall config policy registry call) :
    ∃ refusal, registry.validation config call = .ok refusal := by
  unfold validation
  split
  case isTrue validates =>
    split
    case h_1 => exact ⟨none, rfl⟩
    case h_2 defn found =>
      rw [SchemaValidator.validate_eq, SchemaValidator.afford,
        if_pos (orderly.shallow defn validates found)]
      exact ⟨_, rfl⟩
  case isFalse => exact ⟨none, rfl⟩

theorem runBuiltin_sound {func : ToolFunction} {given : Dict String Json}
    (orderly : Operation.OrderlyCall config policy registry call)
    (admitted : registry.admission config call = .admitted given)
    (found : registry.tools.lookup call.name = some func) :
    Sound config policy registry call (registry.runBuiltin config call func given) := by
  have passes := passes_of_admitted orderly admitted
  have caughts := fun error => orderly.builtin func error found
  unfold runBuiltin
  split
  case h_1 error raised =>
    rw [caught, if_pos (caughts error (.inl ⟨given, admitted, raised⟩))]
    exact sound_of_unchanged registry call _ none
  case h_2 arguments coerced =>
    dsimp only
    split
    case h_1 error raised =>
      rw [caught, if_pos (caughts error (.inr (.inl raised)))]
      exact sound_of_unchanged registry call _ _
    case h_2 output _ =>
      split
      case h_1 error raised =>
        rw [caught, if_pos (caughts error (.inr (.inr (withContext_error raised))))]
        exact sound_of_unchanged registry call _ _
      case h_2 result _ =>
        have kept := sound_of_keep
          ⟨call.name, .builtin func.object, arguments, none, call.later⟩ result orderly rfl rfl
          (by unfold target; rw [found]) (fun settings cacheable =>
            orderly.coerced settings cacheable func arguments found
              (orderly.admitted settings cacheable given admitted ▸ coerced)) passes
        rcases kept with ⟨kept, keeps, sound⟩
        rw [keeps]
        exact sound

omit [DecidableEq Key] in
theorem withContext_ok (answer : ToolResult)
    (context : config.hookRunner = true -> ∃ text, call.postHooks = .ok text) :
    ∃ result, withContext config call answer = .ok result := by
  unfold withContext
  split
  case isTrue hooked =>
    rcases context hooked with ⟨text, said⟩
    rw [said]
    exact ⟨_, rfl⟩
  case isFalse => exact ⟨_, rfl⟩

theorem runMcp_sound {callback : Nat}
    {given : Dict String Json} (orderly : Operation.OrderlyCall config policy registry call)
    (admitted : registry.admission config call = .admitted given)
    (notBuiltin : registry.tools.lookup call.name = none)
    (found : registry.mcpTools.lookup call.name = some server)
    (called : registry.mcpCallback = some callback) :
    Sound config policy registry call (registry.runMcp config call callback server given) := by
  rcases orderly.server notBuiltin (found ▸ rfl) (called ▸ rfl) with ⟨⟨answer, answered⟩, context⟩
  rcases withContext_ok answer context with ⟨result, told⟩
  have kept := sound_of_keep
    ⟨call.name, .mcp callback server (originalName call.name), given, none, call.later⟩ result orderly
    rfl rfl (by unfold target; rw [notBuiltin, found, called]) (fun settings cacheable =>
      orderly.admitted settings cacheable given admitted) (passes_of_admitted orderly admitted)
  rcases kept with ⟨kept, keeps, sound⟩
  unfold runMcp
  dsimp only
  rw [answered]
  dsimp only
  rw [told]
  dsimp only
  rw [keeps]
  exact sound

theorem runTool_sound (orderly : Operation.OrderlyCall config policy registry call) :
    Sound config policy registry call (registry.runTool config call) := by
  unfold runTool
  split
  case h_1 error raised =>
    rcases validation_ok orderly with ⟨refusal, checked⟩
    unfold admission at raised
    split at raised
    case h_1 error failed => cases failed.symm.trans checked
    case h_2 => cases raised
    case h_3 =>
      split at raised
      case isFalse => cases raised
      case isTrue hooked =>
        rcases (orderly.hooks hooked).2 with ⟨verdict, said⟩
        rw [said] at raised
        dsimp only at raised
        split at raised <;> cases raised
  case h_2 => exact sound_of_unchanged registry call _ none
  case h_3 given admitted =>
    split
    case h_1 func found => exact runBuiltin_sound orderly admitted found
    case h_2 notBuiltin =>
      split
      case h_1 server callback found called =>
        exact runMcp_sound orderly admitted notBuiltin found called
      case h_2 => exact sound_of_unchanged registry call _ none

omit [DecidableEq Key] in
theorem orderly_entries (orderly : Operation.OrderlyCall config policy registry call)
    (entries : Dict Key (Int × ToolResult)) :
    Operation.OrderlyCall config policy { registry with entries := entries } call :=
  ⟨orderly.ordered, orderly.hooks, orderly.room, orderly.key, orderly.admitted, orderly.coerced,
    orderly.shallow, orderly.builtin, orderly.server⟩

variable (registry) in
theorem cacheGet_ok {key : Key} (settings : CacheSettings)
    (keyed : config.makeKey call.name call.arguments = .ok key) : ∃ result entries,
      registry.cacheGet config call settings = .ok (result, { registry with entries := entries }) ∧
      (∀ other entry, entries.lookup other = some entry ->
        registry.entries.lookup other = some entry) ∧
      ∀ found, result = some found -> ∃ time,
        registry.entries.lookup key = some (time, found) ∧ call.now - time < settings.ttl := by
  unfold cacheGet
  simp only [keyed, bind, Except.bind]
  split
  case h_1 => exact ⟨none, registry.entries, rfl, fun _ _ found => found, fun _ none' => nomatch none'⟩
  case h_2 time result present =>
    split
    case isTrue fresh =>
      refine ⟨some result, registry.entries, rfl, fun _ _ found => found, fun found same => ?_⟩
      cases same
      exact ⟨time, present, fresh⟩
    case isFalse =>
      exact ⟨none, Dict.pop key registry.entries, rfl,
        fun _ _ found => (Dict.lookup_of_pop found).2, fun _ none' => nomatch none'⟩

theorem execute_sound (orderly : Operation.OrderlyCall config policy registry call) :
    Sound config policy registry call (registry.execute config call) := by
  unfold execute
  split
  case h_1 => exact runTool_sound orderly
  case h_2 settings cacheable =>
    rcases orderly.key settings cacheable with ⟨key, keyed⟩
    rcases cacheGet_ok registry settings keyed with ⟨result, entries, got, fewer, _⟩
    rw [got]
    cases result with
    | some result => exact ⟨⟨result, rfl⟩, rfl, fun _ _ _ found => .inl (fewer _ _ found)⟩
    | none =>
      have sound := runTool_sound (orderly_entries orderly entries)
      exact ⟨sound.answers, sound.tables, fun key time result found =>
        (sound.entries key time result found).imp_left (fewer key (time, result))⟩

theorem kept_execute (kept : Kept config policy (registry, past))
    (orderly : Operation.OrderlyCall config policy registry call) :
    Kept config policy ((registry.execute config call).2.1,
      past ++ (registry.execute config call).2.2.toList) := by
  have sound := execute_sound orderly
  generalize registry.execute config call = answered at sound
  rcases answered with ⟨answer, after, run⟩
  have tables : after = { registry with entries := after.entries } := sound.tables
  refine ⟨?_, ?_, fun key time result found => ?_⟩
  · rw [tables]
    exact kept.complete
  · rw [tables]
    exact kept.distinct
  · have same : ∀ name, SameName registry after name := fun name => by
      rw [tables]
      exact ⟨rfl, rfl, rfl, .inl rfl⟩
    rcases sound.entries key time result found with old | entered
    · exact (kept.backed key time result old).keep after old (fun name _ => same name) run.toList
    · rcases entered with ⟨ran, was, named, arguments, target, given, timed, keyed, passes⟩
      refine ⟨ran, ?_, ?_, ?_, ?_, given, timed, fun other name given' => ?_⟩
      · exact List.mem_append_right past (was ▸ List.mem_singleton_self ran)
      · rw [named, arguments]
        exact keyed
      · rw [arguments]
        exact orderly.ordered
      · rw [named]
        exact (same call.name).target.trans target
      · rw [SameName.passes (same other.name)]
        unfold Passes validation at passes ⊢
        rw [name, given', named, arguments]
        exact passes

theorem cacheRight_of_kept (collisionFree : CollisionFree config)
    (kept : Kept config policy (registry, past))
    (orderly : Operation.OrderlyCall config policy registry call) :
    registry.CacheRight config policy past call := by
  intro result cached
  unfold cachedResult at cached
  split at cached
  case h_1 => cases cached
  case h_2 settings cacheable =>
    rcases orderly.key settings cacheable with ⟨key, keyed⟩
    rcases cacheGet_ok registry settings keyed with ⟨found, entries, got, _, fresh⟩
    rw [got] at cached
    rcases fresh result cached with ⟨time, present, young⟩
    rcases kept.backed key time result present with
      ⟨run, member, same, ordered, target, given, timed, passes⟩
    rcases collisionFree run.name run.arguments call.name call.arguments key ordered orderly.ordered
      same keyed with ⟨named, arguments⟩
    refine ⟨passes call named.symm arguments.symm, run, member, named, arguments, named ▸ target,
      given, fun others limits => ?_⟩
    have these : others = settings := by
      unfold cacheFor at cacheable
      split at cacheable
      · exact Option.some.inj (limits.symm.trans cacheable)
      · cases cacheable
    rw [these, timed]
    exact young

theorem kept_perform {operation : Operation} (kept : Kept config policy (registry, past))
    (orderly : operation.Orderly config policy registry) : Kept config policy
      (perform config registry operation, noteRun config registry operation past) := by
  cases operation with
  | register func => exact kept_register kept orderly
  | unregister name => exact kept_unregister kept orderly
  | registerMcpTool definition server callback => exact kept_registerMcpTool kept orderly
  | unregisterMcpTools server => exact kept_unregisterMcpTools kept orderly
  | execute call => exact kept_execute kept orderly

theorem right_of_kept (collisionFree : CollisionFree config) {operation : Operation}
    (kept : Kept config policy (registry, past))
    (orderly : operation.Orderly config policy registry) :
    operation.Right config policy registry past := by
  cases operation with
  | execute call =>
    exact ⟨(execute_sound orderly).answers, cacheRight_of_kept collisionFree kept orderly⟩
  | _ => trivial

theorem kept_initial : Kept config policy (recorded config).initial :=
  ⟨fun _ => ⟨fun none' => (nomatch none'), fun either => either.elim (nomatch ·) (nomatch ·)⟩,
    List.nodup_nil, fun _ _ _ found => (nomatch found)⟩

variable (config policy) in
/-- In an orderly run every tool has its definition, every call is answered, and
the cache only answers with what the tool now registered has given in time. -/
theorem orderly_run_right (collisionFree : CollisionFree config) (operations : List Operation)
    (orderly : (recorded config).EveryStep
      (fun current operation => operation.Orderly config policy current.1) operations) :
    (recorded config).EveryState (fun current => current.1.Complete) operations ∧
      (recorded config).EveryStep
        (fun current operation => operation.Right config policy current.1 current.2) operations := by
  constructor
  · refine fun before rest split => ((recorded config).guarded_everyState (Kept config policy) _
      kept_initial (fun _ _ kept orderly => kept_perform kept orderly) operations orderly before rest
        split).complete
  · exact (recorded config).everyStep_of_guarded (Kept config policy) _ kept_initial
      (fun _ _ kept orderly => kept_perform kept orderly)
      (fun _ _ kept orderly => right_of_kept collisionFree kept orderly) operations orderly

/-- Only the calls without arguments have a key here. -/
def clockConfig : RegistryConfig String where
  cache := some ⟨300, 100⟩
  cacheableTools := ["clock"]
  makeKey := fun name arguments =>
    if arguments.isEmpty = true then .ok name else .error (.typeError "not serializable")
  conversions := ⟨fun _ => .error (.valueError ""), fun _ => .error (.valueError ""),
    fun number => .ok number, id⟩
  printing := SchemaValidator.asciiPrinting

theorem clockConfig_collisionFree : CollisionFree clockConfig := by
  intro name arguments other others key _ _ keyed same
  simp only [clockConfig] at keyed same
  split at keyed
  case isFalse => cases keyed
  case isTrue none' =>
    split at same
    case isFalse => cases same
    case isTrue none'' =>
      cases keyed
      cases same
      exact ⟨rfl, (List.isEmpty_iff.mp none').trans (List.isEmpty_iff.mp none'').symm⟩

def clock (object : Nat) : ToolFunction :=
  ⟨object, some ⟨"clock", "The time", .mk {} none⟩, []⟩

def askClock (now : Int) (answer : String) : RegistryCall :=
  ⟨"clock", [], now, now, .ok {}, .ok answer, .ok ⟨true, answer, false⟩, .ok ""⟩

def noPolicy : HookPolicy := fun _ _ => .ok {}

theorem orderly_askClock {registry : ToolRegistry String} (func : ToolFunction) {now : Int}
    {answer : String} (found : registry.tools.lookup "clock" = some func) :
    Operation.OrderlyCall clockConfig noPolicy registry (askClock now answer) where
  ordered := rfl
  hooks := fun hooked => (nomatch hooked)
  room := fun settings cached => by
    cases cached
    decide
  key := fun _ _ => ⟨"clock", rfl⟩
  admitted := fun _ _ arguments admitted => by
    cases admitted
    rfl
  coerced := fun _ _ func arguments _ coerced => by
    unfold builtinArguments at coerced
    split at coerced <;> cases coerced <;> rfl
  shallow := fun _ validates => (nomatch validates)
  builtin := by
    rintro func error _ (⟨given, admitted, raised⟩ | raised | ⟨hooked, _⟩)
    · cases admitted
      unfold builtinArguments at raised
      split at raised <;> cases raised
    · cases raised
    · cases hooked
  server := fun absent => (nomatch absent.symm.trans found)

/-- The second answer comes from the cache. -/
theorem orderly_run_right_clock :
    (recorded clockConfig).EveryState (fun current => current.1.Complete)
        [.register (clock 1), .execute (askClock 0 "9:30"), .execute (askClock 60 "9:31")] ∧
      (recorded clockConfig).EveryStep
        (fun current operation => operation.Right clockConfig noPolicy current.1 current.2)
        [.register (clock 1), .execute (askClock 0 "9:30"), .execute (askClock 60 "9:31")] := by
  refine orderly_run_right clockConfig noPolicy clockConfig_collisionFree _ ?_
  rw [Machine.everyStep_iff_stepsFrom]
  refine ⟨fun defn _ arguments key _ => rfl, ?_, ?_, trivial⟩
  · exact orderly_askClock (clock 1) rfl
  · exact orderly_askClock (clock 1) rfl

/-- A builtin tool takes the definition of a server's tool away with its own, and
the clock that was registered later is not asked. -/
theorem registry_run_wrong :
    Not ((recorded clockConfig).EveryState (fun current => current.1.Complete)
      [.register (clock 1), .registerMcpTool ⟨"clock", "Their time", .mk {} none⟩ "watches" (some 7),
        .unregister "clock"]) ∧ Not ((recorded clockConfig).EveryStep
      (fun current operation => operation.Right clockConfig noPolicy current.1 current.2)
      [.register (clock 1), .execute (askClock 0 "9:30"), .register (clock 2),
        .execute (askClock 60 "9:31")]) := by
  constructor
  · intro every
    have complete := every _ [] (List.append_nil _).symm "clock"
    exact absurd (complete.mpr (.inr rfl)) (by decide)
  · intro every
    have right := (every [.register (clock 1), .execute (askClock 0 "9:30"), .register (clock 2)]
      (.execute (askClock 60 "9:31")) [] rfl).2 ⟨true, "9:30", false⟩ rfl
    rcases right.2 with ⟨run, member, _, _, target, _⟩
    cases List.mem_singleton.mp member
    exact absurd target (by decide)

end ToolRegistry
end Tools
end BreadMind
