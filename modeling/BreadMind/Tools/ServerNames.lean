import BreadMind.Tools.ToolRegistry

namespace BreadMind
namespace Tools
namespace ToolRegistry

open Agent (ToolResult)
open Execution SchemaValidator

/-!
# The names of the servers' tools

A tool of a server is registered under the name of the server, two low lines and
its own name.  A call finds its server in the table, and the tool's own name
behind the first two low lines of the name.
-/

/-- A tool as its server lists it. -/
structure ServerTool where
  server : String
  tool : String
  description : String := ""
  inputSchema : Schema

namespace ServerTool

variable (entry : ServerTool)

def namespaced : String := entry.server ++ "__" ++ entry.tool

def definition : ToolDefinition :=
  ⟨entry.namespaced, entry.description, entry.inputSchema⟩

/-- Two low lines begin nowhere in the name of the server, not at its end either. -/
def Clean : Prop :=
  Not ("__".toList <:+: entry.server.toList ++ ['_'])

instance (entry : ServerTool) : Decidable entry.Clean := inferInstanceAs (Decidable (Not _))

end ServerTool

variable {Key : Type}

def registered (registry : ToolRegistry Key) (callback : Nat) (entries : List ServerTool) :
    ToolRegistry Key :=
  entries.foldl (fun registry entry =>
    registry.registerMcpTool entry.definition entry.server (some callback)) registry

/-- Nothing stands between a call and its tool. -/
structure Plain (config : RegistryConfig Key) (name : String) : Prop where
  uncached : cacheFor config name = none
  unvalidated : config.validator = false
  unhooked : config.hookRunner = false

/-- A call under the name of a listed tool asks its server for just this tool, or
for nothing where cache, validation or hooks answer. -/
def Routed [DecidableEq Key] (registry : ToolRegistry Key) (callback : Nat)
    (entries : List ServerTool) : Prop :=
  ∀ entry ∈ entries, ∀ (config : RegistryConfig Key) (call : RegistryCall),
    call.name = entry.namespaced ->
      (∀ run, ((registered registry callback entries).execute config call).2.2 = some run ->
        run.target = .mcp callback entry.server entry.tool) ∧
      (Plain config call.name ->
        ((registered registry callback entries).execute config call).2.2.isSome = true)

/-- Two tools under one name are the same tool of the same server. -/
def Apart (entries : List ServerTool) : Prop :=
  ∀ first second, first ∈ entries -> second ∈ entries ->
    first.namespaced = second.namespaced -> first.server = second.server ∧ first.tool = second.tool

namespace ServerTool

variable {entry other : ServerTool}

theorem namespaced_toList (entry : ServerTool) :
    entry.namespaced.toList = entry.server.toList ++ "__".toList ++ entry.tool.toList := by
  simp only [namespaced, String.toList_append]

theorem originalName_iff (entry : ServerTool) :
    originalName entry.namespaced = entry.tool <-> entry.Clean := by
  have iff := @Text.behind_append_iff "__".toList (by decide) entry.server.toList entry.tool.toList
  rw [← namespaced_toList] at iff
  refine Iff.trans ?_ iff
  unfold originalName
  split
  case h_1 absent =>
    rw [absent]
    refine iff_of_false (fun same => ?_) (fun none' => nomatch none')
    have length := congrArg (fun name => name.toList.length) same
    rw [namespaced_toList] at length
    simp only [List.length_append] at length
    have separator : "__".toList.length = 2 := rfl
    omega
  case h_2 rest found =>
    rw [found, Option.some_inj]
    constructor
    · intro same
      rw [← same, String.toList_ofList]
    · intro same
      rw [same, String.ofList_toList]

theorem same_of_namespaced (clean : entry.Clean) (otherClean : other.Clean)
    (same : entry.namespaced = other.namespaced) :
    entry.server = other.server ∧ entry.tool = other.tool := by
  have tools : entry.tool = other.tool := by
    rw [← (originalName_iff entry).mpr clean, same, (originalName_iff other).mpr otherClean]
  refine ⟨?_, tools⟩
  unfold namespaced at same
  rw [tools, String.append_left_inj, String.append_left_inj] at same
  exact same

end ServerTool

variable (registry : ToolRegistry Key) (callback : Nat) {entries : List ServerTool}

theorem registered_concat (entry : ServerTool) : registered registry callback (entries ++ [entry]) =
      (registered registry callback entries).registerMcpTool entry.definition entry.server
        (some callback) := by
  simp only [registered, List.foldl_append, List.foldl_cons, List.foldl_nil]

theorem registered_tools : (registered registry callback entries).tools = registry.tools := by
  induction entries using List.reverseRecOn with
  | nil => rfl
  | append_singleton earlier entry ih =>
    rw [registered_concat]
    exact ih

theorem registered_callback (some' : entries ≠ []) :
    (registered registry callback entries).mcpCallback = some callback := by
  rcases List.eq_nil_or_concat entries with none' | ⟨earlier, entry, rfl⟩
  · exact absurd none' some'
  · rw [List.concat_eq_append, registered_concat]
    rfl

theorem registered_server {entry : ServerTool} (member : entry ∈ entries) :
    ∃ owner ∈ entries, owner.namespaced = entry.namespaced ∧
      (registered registry callback entries).mcpTools.lookup entry.namespaced = some owner.server := by
  induction entries using List.reverseRecOn with
  | nil => cases member
  | append_singleton earlier last ih =>
    rw [registered_concat]
    simp only [registerMcpTool, Dict.lookup_set, ServerTool.definition]
    by_cases same : entry.namespaced = last.namespaced
    · rw [if_pos same]
      exact ⟨last, List.mem_append_right _ (List.mem_singleton_self last), same.symm, rfl⟩
    · rw [if_neg same]
      rcases List.mem_append.mp member with old | new
      · rcases ih old with ⟨owner, listed, named, found⟩
        exact ⟨owner, List.mem_append_left _ listed, named, found⟩
      · exact absurd (congrArg ServerTool.namespaced (List.mem_singleton.mp new)) same

section Calls

variable [DecidableEq Key] {registry : ToolRegistry Key} {config : RegistryConfig Key}
variable {call : RegistryCall}

variable (registry config call) in
theorem runMcp_run (callback : Nat) (server : String) (arguments : Dict String Json) :
    ∃ run, (registry.runMcp config call callback server arguments).2.2 = some run ∧
      run.target = .mcp callback server (originalName call.name) := by
  unfold runMcp
  dsimp only
  split
  · exact ⟨_, rfl, rfl⟩
  · split
    · exact ⟨_, rfl, rfl⟩
    · split <;> exact ⟨_, rfl, rfl⟩

theorem runTool_run {server : String} {callback : Nat} {run : ToolRun}
    (notBuiltin : registry.tools.lookup call.name = none)
    (found : registry.mcpTools.lookup call.name = some server)
    (called : registry.mcpCallback = some callback)
    (ran : (registry.runTool config call).2.2 = some run) :
    run.target = .mcp callback server (originalName call.name) := by
  unfold runTool at ran
  split at ran
  case h_1 => cases ran
  case h_2 => cases ran
  case h_3 arguments _ =>
    rw [notBuiltin, found, called] at ran
    rcases runMcp_run registry config call callback server arguments with ⟨this, runs, target⟩
    cases ran.symm.trans runs
    exact target

theorem runBuiltin_run {func : ToolFunction} {given : Dict String Json}
    {run : ToolRun} (ran : (registry.runBuiltin config call func given).2.2 = some run) :
    run.target = .builtin func.object := by
  unfold runBuiltin at ran
  split at ran
  case h_1 => cases ran
  case h_2 arguments _ =>
    dsimp only at ran
    split at ran
    case h_1 =>
      cases ran
      rfl
    case h_2 =>
      split at ran
      case h_1 =>
        cases ran
        rfl
      case h_2 =>
        split at ran <;> cases ran <;> rfl

theorem cacheGet_tables {settings : CacheSettings} {result : Option ToolResult}
    {kept : ToolRegistry Key} (got : registry.cacheGet config call settings = .ok (result, kept)) :
    kept.tools = registry.tools ∧ kept.mcpTools = registry.mcpTools ∧
      kept.mcpCallback = registry.mcpCallback := by
  unfold cacheGet at got
  cases keyed : config.makeKey call.name call.arguments with
  | error error =>
    rw [keyed] at got
    cases got
  | ok key =>
    rw [keyed] at got
    simp only [bind, Except.bind] at got
    split at got
    · cases got
      exact ⟨rfl, rfl, rfl⟩
    · split at got <;> cases got <;> exact ⟨rfl, rfl, rfl⟩

theorem execute_run {server : String} {callback : Nat} {run : ToolRun}
    (notBuiltin : registry.tools.lookup call.name = none)
    (found : registry.mcpTools.lookup call.name = some server)
    (called : registry.mcpCallback = some callback)
    (ran : (registry.execute config call).2.2 = some run) :
    run.target = .mcp callback server (originalName call.name) := by
  unfold execute at ran
  split at ran
  case h_1 => exact runTool_run notBuiltin found called ran
  case h_2 settings _ =>
    split at ran
    case h_1 => cases ran
    case h_2 => cases ran
    case h_3 kept got =>
      rcases cacheGet_tables got with ⟨tools, mcpTools, mcpCallback⟩
      exact runTool_run (tools ▸ notBuiltin) (mcpTools ▸ found) (mcpCallback ▸ called) ran

theorem execute_plain (plain : Plain config call.name) : registry.execute config call =
      match registry.tools.lookup call.name with
      | some func => registry.runBuiltin config call func call.arguments
      | none =>
        match registry.mcpTools.lookup call.name, registry.mcpCallback with
        | some server, some callback => registry.runMcp config call callback server call.arguments
        | _, _ => (.ok ⟨false, "Tool not found: " ++ call.name, true⟩, registry, none) := by
  have admitted : registry.admission config call = .admitted call.arguments := by
    unfold admission validation
    rw [plain.unvalidated, plain.unhooked]
    rfl
  have uncached : registry.execute config call = registry.runTool config call := by
    unfold execute
    rw [plain.uncached]
  rw [uncached]
  unfold runTool
  generalize registry.admission config call = admission at admitted
  subst admitted
  rfl

end Calls

def plainConfig : RegistryConfig Key where
  makeKey := fun _ _ => .error (.typeError "")
  conversions := ⟨fun _ => .error (.valueError ""), fun _ => .error (.valueError ""),
    fun number => .ok number, id⟩
  printing := ⟨fun _ => true, fun _ => ""⟩

theorem plain_plainConfig (name : String) : Plain (plainConfig : RegistryConfig Key) name :=
  ⟨ite_self _, rfl, rfl⟩

def bareCall (name : String) : RegistryCall :=
  ⟨name, [], 0, 0, .ok {}, .ok "", .ok ⟨true, "", false⟩, .ok ""⟩

/-- Every tool of every server is called as itself, and no two share a name, if and
only if two low lines begin in no server's name and no builtin tool has the name of
one of theirs. -/
theorem routed_iff [DecidableEq Key] (entries : List ServerTool) :
    Routed registry callback entries ∧ Apart entries <-> ∀ entry ∈ entries,
        entry.Clean ∧ registry.tools.lookup entry.namespaced = none := by
  constructor
  · rintro ⟨routed, _⟩ entry member
    rcases routed entry member plainConfig (bareCall entry.namespaced) rfl with ⟨target, runs⟩
    rcases Option.isSome_iff_exists.mp (runs (plain_plainConfig _)) with ⟨run, ran⟩
    have asked := target run ran
    have notBuiltin : registry.tools.lookup entry.namespaced = none := by
      cases found : registry.tools.lookup entry.namespaced with
      | none => rfl
      | some func =>
        rw [execute_plain (plain_plainConfig _), registered_tools] at ran
        simp only [bareCall, found] at ran
        cases asked.symm.trans (runBuiltin_run ran)
    refine ⟨?_, notBuiltin⟩
    rcases registered_server registry callback member with ⟨owner, _, _, found⟩
    have decoded := @execute_run _ _ _ plainConfig (bareCall entry.namespaced) _ _ _
      (registered_tools registry callback ▸ notBuiltin) found
      (registered_callback registry callback (List.ne_nil_of_mem member)) ran
    have same := asked.symm.trans decoded
    rw [ToolTarget.mcp.injEq] at same
    exact (ServerTool.originalName_iff entry).mp same.2.2.symm
  · intro good
    have apart : Apart entries := fun first second listed alsoListed same =>
      ServerTool.same_of_namespaced (good first listed).1 (good second alsoListed).1 same
    refine ⟨fun entry member config call named => ?_, apart⟩
    rcases good entry member with ⟨clean, notBuiltin⟩
    rcases registered_server registry callback member with ⟨owner, listed, same, found⟩
    rw [(apart owner entry listed member same).1] at found
    have called := registered_callback registry callback (List.ne_nil_of_mem member)
    rw [← @registered_tools _ registry callback entries] at notBuiltin
    rw [← named] at notBuiltin found
    constructor
    · intro run ran
      rw [execute_run notBuiltin found called ran, named,
        (ServerTool.originalName_iff entry).mpr clean]
    · intro plain
      rw [execute_plain plain, notBuiltin, found, called]
      rcases runMcp_run _ config call callback entry.server call.arguments with ⟨run, ran, _⟩
      exact Option.isSome_iff_exists.mpr ⟨run, ran⟩

/-- The low lines in the name of the first server are taken for the separator, and
a tool of the second server has the same name. -/
theorem server_name_cut : Not (Routed ({} : ToolRegistry String) 0
      [⟨"my", "files__read", "", .mk {} none⟩, ⟨"my__files", "read", "", .mk {} none⟩]) ∧
    Not (Apart [⟨"my", "files__read", "", .mk {} none⟩, ⟨"my__files", "read", "", .mk {} none⟩]) := by
  constructor
  · intro routed
    have asked := (routed _ (List.mem_cons_of_mem _ (List.mem_singleton_self _)) plainConfig
      (bareCall "my__files__read") (by decide)).1 _ rfl
    exact absurd asked (by decide)
  · intro apart
    have same := apart _ _ List.mem_cons_self (List.mem_cons_of_mem _ (List.mem_singleton_self _))
      (by decide)
    exact absurd same.1 (by decide)

end ToolRegistry
end Tools
end BreadMind
