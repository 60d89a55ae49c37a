import BreadMind.Hooks.ToolHooks
import BreadMind.Text.Splitting
import BreadMind.Tools.SchemaValidator

namespace BreadMind
namespace Tools

open Agent (ToolResult)
open Execution Hooks SchemaValidator

/-!
# The registry of the tools

Builtin tools and those of MCP servers share one table of definitions.  A call
may be answered from the cache; else it is validated, shown to the hooks, and
run.  What the outside does on a call (the hooks, the tool, the callback of the
servers, the clock) comes with the call.
-/

structure ToolDefinition where
  name : String
  description : String
  parameters : Schema

/-- A callable as the registry sees it; `object` tells two of them apart. -/
structure ToolFunction where
  object : Nat
  definition : Option ToolDefinition
  signature : List String

/-- `int`, `float` and `str.lower`, which may raise. -/
structure Conversions where
  intOfText : String -> Except PyError Int
  floatOfText : String -> Except PyError Rat
  floatOfInt : Int -> Except PyError Rat
  lower : String -> String

structure CacheSettings where
  ttl : Int
  maxSize : Nat

/-- What a registry is made with.  The digest of a call may raise, where its
arguments cannot be written as JSON; `frames` are those left to the validator. -/
structure RegistryConfig (Key : Type) where
  cache : Option CacheSettings := none
  cacheableTools : List String := []
  validator : Bool := false
  hookRunner : Bool := false
  makeKey : String -> Dict String Json -> Except PyError Key
  conversions : Conversions
  printing : Text.Printing
  frames : Nat := 1000

structure ToolRegistry (Key : Type) where
  tools : Dict String ToolFunction := []
  definitions : Dict String ToolDefinition := []
  mcpTools : Dict String String := []
  mcpCallback : Option Nat := none
  entries : Dict Key (Int × ToolResult) := []

namespace RegistryConfig

variable {Key : Type} (config : RegistryConfig Key)

def cannotConvert (value : Json) (expected : String) : PyError :=
  .typeError ("Cannot convert " ++ typeName value ++ " to " ++ expected)

def coerceType (value : Json) : SchemaType -> Except PyError Json
  | .integer =>
    match value with
    | .int _ => .ok value
    | .str text => (config.conversions.intOfText text).map Json.int
    | .float number => .ok (.int (Int.tdiv number.num number.den))
    | _ => .error (cannotConvert value "integer")
  | .number =>
    match value with
    | .int number => (config.conversions.floatOfInt number).map Json.float
    | .float _ => .ok value
    | .str text => (config.conversions.floatOfText text).map Json.float
    | _ => .error (cannotConvert value "number")
  | .boolean =>
    match value with
    | .bool _ => .ok value
    | .str text =>
      if config.conversions.lower text ∈ ["true", "1", "yes"] then .ok (.bool true)
      else if config.conversions.lower text ∈ ["false", "0", "no"] then .ok (.bool false)
      else .error (cannotConvert value "boolean")
    | _ => .error (cannotConvert value "boolean")
  | .string =>
    match value with
    | .str _ => .ok value
    | _ => .ok (.str (config.printing.str value))
  | _ => .ok value

/-- One argument coerced to the type of its schema; a `ValueError` or a
`TypeError` becomes a `ValueError` that names it. -/
def coerceArgument (schema : Schema) (argument : String × Json) : Except PyError (String × Json) :=
  match (schema.property argument.1).bind fun inner => inner.keywords.type, argument.2 with
  | none, _ => .ok argument
  | some _, .null => .ok argument
  | some expected, value =>
    match config.coerceType value expected with
    | .ok coerced => .ok (argument.1, coerced)
    | .error (.typeError message) | .error (.valueError message) =>
      .error (.valueError ("Parameter '" ++ argument.1 ++ "': cannot convert " ++
        typeName value ++ " to " ++ expected.text ++ ": " ++ message))
    | .error other => .error other

def filterArguments (func : ToolFunction) (arguments : Dict String Json) : Dict String Json :=
  arguments.filter fun argument => decide (argument.1 ∈ func.signature)

def validateAndCoerceArguments (func : ToolFunction) (arguments : Dict String Json)
    (schema : Schema) : Except PyError (Dict String Json) :=
  (filterArguments func arguments).mapM (config.coerceArgument schema)

def maxOutputSize : Nat := 50000

def truncateOutput (output : String) : String :=
  if maxOutputSize < output.length then
    String.ofList (output.toList.take maxOutputSize) ++ "[...truncated, showing first " ++
      toString maxOutputSize ++ " chars]"
  else output

end RegistryConfig

/-! ## The tables -/

namespace ToolRegistry

variable {Key : Type} (registry : ToolRegistry Key)

/-- `register`; a callable which is not a tool is refused. -/
def register (func : ToolFunction) : Except PyError (ToolRegistry Key) :=
  match func.definition with
  | none => .error (.valueError "the function is not decorated with @tool")
  | some defn =>
    .ok { registry with
      tools := Dict.set defn.name func registry.tools
      definitions := Dict.set defn.name defn registry.definitions }

def unregister (name : String) : Bool × ToolRegistry Key :=
  ((registry.tools.lookup name).isSome, { registry with
      tools := Dict.pop name registry.tools
      definitions := Dict.pop name registry.definitions })

def registerMcpTool (definition : ToolDefinition) (serverName : String)
    (executeCallback : Option Nat) : ToolRegistry Key :=
  { registry with
    definitions := Dict.set definition.name definition registry.definitions
    mcpTools := Dict.set definition.name serverName registry.mcpTools
    mcpCallback := executeCallback.or registry.mcpCallback }

def unregisterMcpTools (serverName : String) : ToolRegistry Key :=
  let toRemove := (registry.mcpTools.filter fun entry => decide (entry.2 = serverName)).map Prod.fst
  { registry with
    definitions := toRemove.foldl (fun table name => Dict.pop name table) registry.definitions
    mcpTools := toRemove.foldl (fun table name => Dict.pop name table) registry.mcpTools }

end ToolRegistry

structure RegistryCall where
  name : String
  arguments : Dict String Json
  now : Int
  later : Int
  preHooks : Except PyError ToolHookResult
  output : Except PyError String
  callback : Except PyError ToolResult
  postHooks : Except PyError String

inductive ToolTarget where
  | builtin (object : Nat)
  | mcp (callback : Nat) (server name : String)
  deriving DecidableEq

/-- A run of a tool with these arguments, its result and when it was cached. -/
structure ToolRun where
  name : String
  target : ToolTarget
  arguments : Dict String Json
  result : Option ToolResult
  time : Int

namespace ToolRegistry

variable {Key : Type} [DecidableEq Key] (config : RegistryConfig Key) (registry : ToolRegistry Key)
variable (call : RegistryCall)

/-- The settings of the cache, if the results of the tool are cached. -/
def cacheFor (name : String) : Option CacheSettings :=
  if name ∈ config.cacheableTools then config.cache else none

variable (settings : CacheSettings)

/-- `ToolResultCache.get`; an entry that is too old is dropped. -/
def cacheGet : Except PyError (Option ToolResult × ToolRegistry Key) := do
  let key <- config.makeKey call.name call.arguments
  match registry.entries.lookup key with
  | none => pure (none, registry)
  | some (time, result) =>
    if call.now - time < settings.ttl then pure (some result, registry)
    else pure (none, { registry with entries := Dict.pop key registry.entries })

def oldestKey : Dict Key (Int × ToolResult) -> Option Key
  | [] => none
  | entry :: rest =>
    some (rest.foldl (fun oldest other => if other.2.1 < oldest.2.1 then other else oldest) entry).1

/-- The entries when there is room for another one; `min` of an empty cache raises. -/
def makeRoom : Except PyError (Dict Key (Int × ToolResult)) :=
  if settings.maxSize ≤ registry.entries.length then
    match oldestKey registry.entries with
    | none => .error (.valueError "min() iterable argument is empty")
    | some oldest => .ok (Dict.pop oldest registry.entries)
  else .ok registry.entries

/-- `ToolResultCache.set`, with what it raises. -/
def cacheSet (arguments : Dict String Json) (result : ToolResult) :
    Option PyError × ToolRegistry Key :=
  match registry.makeRoom settings with
  | .error error => (some error, registry)
  | .ok entries =>
    match config.makeKey call.name arguments with
    | .error error => (some error, { registry with entries := entries })
    | .ok key => (none, { registry with entries := Dict.set key (call.later, result) entries })

/-- What stands before the run of a tool. -/
inductive Admission where
  | raised (error : PyError)
  | refused (result : ToolResult)
  | admitted (arguments : Dict String Json)

def validation : Except PyError (Option ToolResult) :=
  if config.validator = true then
    match registry.definitions.lookup call.name with
    | none => .ok none
    | some defn =>
      (validate config.printing call.arguments defn.parameters config.frames).map fun checked =>
        if checked.valid = true then none
        else some { success := false
                    output := "Schema validation failed: " ++
                      "; ".intercalate (checked.errors.map ValidationError.message) }
  else .ok none

def admission : Admission :=
  match registry.validation config call with
  | .error error => .raised error
  | .ok (some refusal) => .refused refusal
  | .ok none =>
    if config.hookRunner = true then
      match call.preHooks with
      | .error error => .raised error
      | .ok verdict =>
        match verdict.action, verdict.modifiedInput with
        | .block, _ =>
          .refused { success := false, output := "Blocked by hook: " ++ verdict.blockReason }
        | .modify, some arguments => .admitted arguments
        | _, _ => .admitted call.arguments
    else .admitted call.arguments

/-- The hooks after the tool add their context to the output. -/
def withContext (result : ToolResult) : Except PyError ToolResult :=
  if config.hookRunner = true then
    call.postHooks.map fun context =>
      if context = "" then result
      else { success := result.success, output := result.output ++ "\n" ++ context }
  else .ok result

/-- A successful result of a cacheable tool is cached. -/
def keep (arguments : Dict String Json) (result : ToolResult) : Option PyError × ToolRegistry Key :=
  match cacheFor config call.name with
  | some settings =>
    if result.success = true then registry.cacheSet config call settings arguments result
    else (none, registry)
  | none => (none, registry)

def failure : PyError -> ToolResult
  | .valueError message => { success := false, output := "Validation error: " ++ message }
  | error => { success := false, output := "Tool error: " ++ error.text }

/-- An `Exception` that a builtin tool raises, or that is raised after it, becomes a result. -/
def caught (error : PyError) : Except PyError ToolResult :=
  if error.isException = true then .ok (failure error) else .error error

def builtinArguments (func : ToolFunction) (arguments : Dict String Json) :
    Except PyError (Dict String Json) :=
  match registry.definitions.lookup call.name with
  | some defn => config.validateAndCoerceArguments func arguments defn.parameters
  | none => .ok (RegistryConfig.filterArguments func arguments)

abbrev Answered (Key : Type) := Except PyError ToolResult × ToolRegistry Key × Option ToolRun

def runBuiltin (func : ToolFunction) (given : Dict String Json) : Answered Key :=
  match registry.builtinArguments config call func given with
  | .error error => (caught error, registry, none)
  | .ok arguments =>
    let run : ToolRun := ⟨call.name, .builtin func.object, arguments, none, call.later⟩
    match call.output with
    | .error error => (caught error, registry, some run)
    | .ok output =>
      match withContext config call ⟨true, RegistryConfig.truncateOutput output, false⟩ with
      | .error error => (caught error, registry, some run)
      | .ok result =>
        match registry.keep config call arguments result with
        | (some error, kept) => (caught error, kept, some run)
        | (none, kept) => (.ok result, kept, some { run with result := some result })

/-- `name.split("__", 1)[1]`, for a name that has a separator. -/
def originalName (name : String) : String :=
  match Text.behind "__".toList name.toList with
  | none => name
  | some rest => String.ofList rest

def runMcp (callback : Nat) (server : String) (arguments : Dict String Json) : Answered Key :=
  let run : ToolRun :=
    ⟨call.name, .mcp callback server (originalName call.name), arguments, none, call.later⟩
  match call.callback with
  | .error error => (.error error, registry, some run)
  | .ok answer =>
    match withContext config call answer with
    | .error error => (.error error, registry, some run)
    | .ok result =>
      match registry.keep config call arguments result with
      | (some error, kept) => (.error error, kept, some run)
      | (none, kept) => (.ok result, kept, some { run with result := some result })

def runTool : Answered Key :=
  match registry.admission config call with
  | .raised error => (.error error, registry, none)
  | .refused result => (.ok result, registry, none)
  | .admitted arguments =>
    match registry.tools.lookup call.name with
    | some func => registry.runBuiltin config call func arguments
    | none =>
      match registry.mcpTools.lookup call.name, registry.mcpCallback with
      | some server, some callback => registry.runMcp config call callback server arguments
      | _, _ => (.ok ⟨false, "Tool not found: " ++ call.name, true⟩, registry, none)

def execute : Answered Key :=
  match cacheFor config call.name with
  | none => registry.runTool config call
  | some settings =>
    match registry.cacheGet config call settings with
    | .error error => (.error error, registry, none)
    | .ok (some result, kept) => (.ok result, kept, none)
    | .ok (none, kept) => kept.runTool config call

inductive Operation where
  | register (func : ToolFunction)
  | unregister (name : String)
  | registerMcpTool (definition : ToolDefinition) (serverName : String)
      (executeCallback : Option Nat)
  | unregisterMcpTools (serverName : String)
  | execute (call : RegistryCall)

def perform (registry : ToolRegistry Key) : Operation -> ToolRegistry Key
  | .register func => (registry.register func).toOption.getD registry
  | .unregister name => (registry.unregister name).2
  | .registerMcpTool definition serverName executeCallback =>
    registry.registerMcpTool definition serverName executeCallback
  | .unregisterMcpTools serverName => registry.unregisterMcpTools serverName
  | .execute call => (registry.execute config call).2.1

def machine : Machine (ToolRegistry Key) Operation where
  initial := {}
  step := perform config

end ToolRegistry
end Tools
end BreadMind
