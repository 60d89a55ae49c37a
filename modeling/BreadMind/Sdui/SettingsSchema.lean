import BreadMind.Sdui.FieldChecks

namespace BreadMind
namespace Sdui

open Settings (isCredentialKey)

/-!
# The settings schema

Every key has a validator which returns the cleaned value or raises a
`SettingsValidationError`, and the callers catch nothing else.  What a
validator has cleaned it leaves as it is; it raises something else exactly on
the values where the first thing that is wrong is fatal to its check.
-/

/-- How `sorted(...)` is shown. -/
def listText (names : List String) : String :=
  "[" ++ ", ".intercalate (names.map fun name => "'" ++ name ++ "'") ++ "]"

def personaPresets : List String := ["concise", "friendly", "humorous", "professional"]

def embeddingProviders : List String :=
  ["auto", "fastembed", "gemini", "local", "off", "ollama", "openai"]

def skillMarketTypes : List String := ["clawhub", "mcp_registry", "skills_sh", "skillsmp"]

def logLevels : List String := ["CRITICAL", "DEBUG", "ERROR", "INFO", "WARNING"]

def logFormats : List String := ["json", "text"]

def maxInstructionsLen : Nat := 8000

/-- A payload has to be an object with one of the fields at least. -/
def payload (key : String) (fields : List Field) (distinct : (fields.map Field.name).Nodup) : Check :=
  .object (key ++ " must be an object") (some (key ++ " payload empty")) fields distinct

def place (listName : String) (index : Nat) : String :=
  listName ++ "[" ++ toString index ++ "]"

def validateLlm : Check :=
  payload "llm"
    [{ name := "default_provider"
       check := .nonEmptyString "default_provider must be a non-empty string" },
      { name := "default_model"
        check := .nonEmptyString "default_model must be a non-empty string" },
      { name := "tool_call_max_turns", check := .intInRange "tool_call_max_turns" 1 50 }]
    (by decide)

def validatePersona : Check :=
  payload "persona"
    [{ name := "name", check := .string "persona.name must be string" },
      { name := "preset"
        check := .oneOf personaPresets ("persona.preset must be one of " ++ listText personaPresets) },
      { name := "language", check := .string "persona.language must be string" },
      { name := "specialties", check := .strings "persona.specialties must be list[str]" }]
    (by decide)

def validateCustomPrompts : Check :=
  payload "custom_prompts"
    (["main_system_prompt", "behavior_prompt"].map fun field =>
      { name := field, check := .string (field ++ " must be string") })
    (by decide)

def validateInstructions : Check :=
  .test fun
    | .str text =>
      if maxInstructionsLen < text.length then
        some ("custom_instructions exceeds " ++ toString maxInstructionsLen ++ " chars")
      else none
    | _ => some "custom_instructions must be string"

def validateEmbedding : Check :=
  payload "embedding_config"
    [{ name := "provider"
       check := .oneOf embeddingProviders
         ("embedding provider must be one of " ++ listText embeddingProviders) },
      { name := "model_name"
        check := .stringOrNull "embedding model_name must be string or null" },
      { name := "ollama_base_url", check := .string "ollama_base_url must be string" }]
    (by decide)

def validateCredential : Check :=
  .nonEmptyString "credential value must be non-empty string"

/-! ## The second settings -/

section

-- `repr` of a name, which messages show.
variable (quoted : String -> String)

def validateMcp : Check :=
  payload "mcp"
    [{ name := "auto_discover", check := .bool "mcp.auto_discover" },
      { name := "max_restart_attempts"
        check := .intAtLeast 0 "mcp.max_restart_attempts must be int"
          "mcp.max_restart_attempts must be >= 0" }]
    (by decide)

def uniqueName (listName : String) (index : Nat) (seenNames : List String) : Field where
  name := "name"
  fallback := some .null
  check := .test fun
    | .str name =>
      if name = "" then some (place listName index ++ ".name must be a non-empty string")
      else if seenNames.contains name then some (listName ++ ": duplicate name " ++ quoted name)
      else none
    | _ => some (place listName index ++ ".name must be a non-empty string")

def validateMcpServers : Check :=
  .list "mcp_servers must be a list" fun i seenNames =>
    .object (place "mcp_servers" i ++ " must be an object") none
      [uniqueName quoted "mcp_servers" i seenNames,
        { name := "command"
          fallback := some .null
          check := .nonEmptyString (place "mcp_servers" i ++ ".command must be a non-empty string") },
        { name := "args"
          fallback := some (.arr [])
          check := .strings (place "mcp_servers" i ++ ".args must be list[str]") },
        { name := "env"
          fallback := some (.obj [])
          check := .entries (place "mcp_servers" i ++ ".env must be dict[str, str]") fun _ =>
            .string (place "mcp_servers" i ++ ".env must be dict[str, str]") },
        { name := "enabled"
          fallback := some (.bool true)
          check := .boolean (place "mcp_servers" i ++ ".enabled must be bool") }]
      (show ["name", "command", "args", "env", "enabled"].Nodup by decide)

def validateSkillMarkets : Check :=
  .list "skill_markets must be a list" fun i seenNames =>
    .object (place "skill_markets" i ++ " must be an object") none
      [uniqueName quoted "skill_markets" i seenNames,
        { name := "type"
          fallback := some .null
          check := .oneOf skillMarketTypes
            (place "skill_markets" i ++ ".type must be one of " ++ listText skillMarketTypes) },
        { name := "enabled"
          fallback := some (.bool true)
          check := .bool (place "skill_markets" i ++ ".enabled") },
        { name := "url", check := .string (place "skill_markets" i ++ ".url must be string") }]
      (show ["name", "type", "enabled", "url"].Nodup by decide)

def validateSafetyBlacklist : Check :=
  .entries "safety_blacklist must be an object" fun domain =>
    .list ("safety_blacklist[" ++ quoted domain ++ "] must be a list of tool names") fun _ _ =>
      .nonEmptyString ("safety_blacklist[" ++ quoted domain ++ "] contains an invalid tool name")

def validateSafetyApproval : Check :=
  .list "safety_approval must be a list of tool name strings" fun i _ =>
    .nonEmptyString (place "safety_approval" i ++ " must be a non-empty string")

def validateSafetyPermissions : Check :=
  payload "safety_permissions"
    [{ name := "user_permissions"
       check := .entries "safety_permissions.user_permissions must be an object" fun user =>
         .strings ("safety_permissions.user_permissions[" ++ quoted user ++ "] must be list[str]") },
      { name := "admin_users"
        check := .strings "safety_permissions.admin_users must be list[str]" }]
    (show ["user_permissions", "admin_users"].Nodup by decide)

def validateToolSecurity : Check :=
  payload "tool_security"
    ((["dangerous_patterns", "sensitive_file_patterns", "allowed_ssh_hosts",
        "command_whitelist"].map fun field =>
        { name := field, check := .strings ("tool_security." ++ field ++ " must be list[str]") }) ++
      [{ name := "base_directory", check := .string "tool_security.base_directory must be string" },
        { name := "command_whitelist_enabled"
          check := .bool "tool_security.command_whitelist_enabled" }])
    (by decide)

def monitoringRules : Check :=
  .list "monitoring_config.rules must be a list" fun i _ =>
    .object (place "monitoring_config.rules" i ++ " must be an object") none
      [{ name := "name"
         fallback := some .null
         check := .nonEmptyString
           (place "monitoring_config.rules" i ++ ".name must be a non-empty string") },
        { name := "enabled"
          fallback := some (.bool true)
          check := .boolean (place "monitoring_config.rules" i ++ ".enabled must be bool") },
        { name := "interval_seconds"
          fallback := some .null
          check := .intAtLeast 60
            (place "monitoring_config.rules" i ++ ".interval_seconds must be int")
            (place "monitoring_config.rules" i ++ ".interval_seconds must be >= 60") }]
      (show ["name", "enabled", "interval_seconds"].Nodup by decide)

def loopProtectorFields : List String := ["cooldown_minutes", "max_auto_actions"]

def monitoringFields : List Field :=
  [{ name := "rules", check := monitoringRules },
    { name := "loop_protector"
      check := .object "monitoring_config.loop_protector must be an object" none
        (loopProtectorFields.map fun field =>
          { name := field
            check := .intAtLeast 0 ("monitoring_config.loop_protector." ++ field ++ " must be int")
              ("monitoring_config.loop_protector." ++ field ++ " must be >= 0") })
        (by decide) }]

/-- A form sends the fields of the loop protector flat; they are put under its name. -/
def wrapLoopProtector (data : List (String × JsonValue)) : List (String × JsonValue) :=
  if loopProtectorFields.any (fun name => (data.lookup name).isSome) &&
      (data.lookup "loop_protector").isNone then
    data.filter (fun entry => !loopProtectorFields.contains entry.1) ++
      [("loop_protector", .obj (loopProtectorFields.filterMap fun name =>
        (data.lookup name).map fun value => (name, value)))]
  else data

theorem wrapLoopProtector_eq {data : List (String × JsonValue)}
    (named : ∀ entry ∈ data, entry.1 ∈ monitoringFields.map Field.name) :
    wrapLoopProtector data = data := by
  have absent : ∀ name ∈ loopProtectorFields, data.lookup name = none := by
    intro name flat
    refine List.lookup_eq_none_iff.mpr fun entry member => bne_iff_ne.mpr fun same => ?_
    have apart : ∀ name ∈ loopProtectorFields, name ∉ ["rules", "loop_protector"] := by
      decide
    exact apart name flat (same ▸ named entry member)
  have none_ : (loopProtectorFields.any fun name => (data.lookup name).isSome) = false := by
    refine List.any_eq_false.mpr fun name flat => ?_
    rw [absent name flat]
    exact Bool.false_ne_true
  unfold wrapLoopProtector
  rw [none_, Bool.false_and, if_neg Bool.false_ne_true]

def JsonValue.mapObject (change : List (String × JsonValue) -> List (String × JsonValue)) :
    JsonValue -> JsonValue
  | .obj data => .obj (change data)
  | other => other

def monitoringConfig : Check :=
  payload "monitoring_config" monitoringFields (by decide)

def validateMonitoringConfig : Check where
  run draws value := monitoringConfig.run draws (value.mapObject wrapLoopProtector)
  isFatal draws value := monitoringConfig.isFatal draws (value.mapObject wrapLoopProtector)
  idempotent := by
    intro draws value cleaned returned others
    rcases Check.runObject_eq_ok.mp returned with ⟨data, out, _, rfl, ran, _⟩
    rw [JsonValue.mapObject, wrapLoopProtector_eq (Field.names_runAll ran)]
    exact monitoringConfig.idempotent draws _ _ returned others
  raises_iff draws value := monitoringConfig.raises_iff draws _

def validateSchedulerCron : Check :=
  .list "scheduler_cron must be a list" fun i _ =>
    .object (place "scheduler_cron" i ++ " must be an object") none
      -- The identifier comes first in the entry; it is made last, and that cannot fail.
      [{ name := "id", fallback := some .null, check := .orDrawn i },
        { name := "name"
          fallback := some .null
          check := .nonEmptyString (place "scheduler_cron" i ++ ".name must be a non-empty string") },
        { name := "schedule"
          fallback := some .null
          check := .nonEmptyString
            (place "scheduler_cron" i ++ ".schedule must be a non-empty string") },
        { name := "task"
          fallback := some .null
          check := .nonEmptyString (place "scheduler_cron" i ++ ".task must be a non-empty string") },
        { name := "enabled"
          fallback := some (.bool true)
          check := .bool (place "scheduler_cron" i ++ ".enabled") },
        { name := "model", check := .anything }]
      (show ["id", "name", "schedule", "task", "enabled", "model"].Nodup by decide)

def validateWebhookEndpoints : Check :=
  .list "webhook_endpoints must be a list" fun i _ =>
    .object (place "webhook_endpoints" i ++ " must be an object") none
      [{ name := "url"
         fallback := some .null
         check := .test fun
           | .str url =>
             if url = "" then some (place "webhook_endpoints" i ++ ".url must be a non-empty string")
             else if "http://".toList.isPrefixOf url.toList ||
                 "https://".toList.isPrefixOf url.toList then none
             else some (place "webhook_endpoints" i ++ ".url must start with http:// or https://")
           | _ => some (place "webhook_endpoints" i ++ ".url must be a non-empty string") },
        { name := "event_type"
          fallback := some .null
          check := .nonEmptyString
            (place "webhook_endpoints" i ++ ".event_type must be a non-empty string") },
        { name := "active"
          fallback := some (.bool true)
          check := .boolean (place "webhook_endpoints" i ++ ".active must be bool") }]
      (show ["url", "event_type", "active"].Nodup by decide)

end

def intField (key : String) (lo hi : Int) (field : String) : Field where
  name := field
  check := .intInRange (key ++ "." ++ field) lo hi

def floatField (key : String) (lo hi : FloatLiteral) (field : String) : Field where
  name := field
  check := .floatInRange (key ++ "." ++ field) lo hi

def validateMemoryGcConfig : Check :=
  payload "memory_gc_config"
    [intField "memory_gc_config" 60 86400 "interval_seconds",
      floatField "memory_gc_config" ⟨1 / 100, "0.01"⟩ ⟨1, "1.0"⟩ "decay_threshold",
      intField "memory_gc_config" 10 10000 "max_cached_notes",
      intField "memory_gc_config" 1 365 "kg_max_age_days",
      intField "memory_gc_config" 1 3600 "env_refresh_interval"]
    (by decide)

def validateSystemTimeouts : Check :=
  payload "system_timeouts"
    (["tool_call", "llm_api", "ssh_command", "health_check", "pypi_check", "http_default",
      "skill_discovery"].map (intField "system_timeouts" 1 3600))
    (by decide)

def validateRetryConfig : Check :=
  payload "retry_config"
    (["max_retries", "llm_max_retries", "gateway_max_retries"].map (intField "retry_config" 1 50) ++
      ["base_backoff", "max_backoff"].map (intField "retry_config" 1 600) ++
      [intField "retry_config" 5 3600 "health_check_interval"])
    (by decide)

def validateLimitsConfig : Check :=
  payload "limits_config"
    [intField "limits_config" 1 200 "max_tools",
      intField "limits_config" 100 1000000 "max_context_tokens",
      intField "limits_config" 1 50 "max_per_domain_skills",
      intField "limits_config" 1 10000 "audit_log_recent",
      intField "limits_config" 10 100000 "embedding_cache_size",
      intField "limits_config" 1 100 "top_roles_limit",
      intField "limits_config" 100 1000000 "smart_retriever_token_budget",
      intField "limits_config" 1 100 "smart_retriever_limit",
      floatField "limits_config" ⟨0, "0.0"⟩ ⟨1, "1.0"⟩ "low_performance_threshold"]
    (by decide)

def validatePollingConfig : Check :=
  payload "polling_config"
    (["signal_interval", "gmail_interval", "update_check_interval", "data_flush_interval",
      "auto_cleanup_interval"].map (intField "polling_config" 1 86400))
    (by decide)

def validateAgentTimeouts : Check :=
  payload "agent_timeouts"
    [intField "agent_timeouts" 1 3600 "tool_timeout",
      intField "agent_timeouts" 1 3600 "chat_timeout",
      intField "agent_timeouts" 1 100 "max_turns"]
    (by decide)

def validateLoggingConfig : Check :=
  payload "logging_config"
    [{ name := "level"
       check := .upperOneOf logLevels "logging_config.level must be a string"
         ("logging_config.level must be one of " ++ listText logLevels) (by decide +kernel) },
      { name := "format"
        check := .oneOf logFormats ("logging_config.format must be one of " ++ listText logFormats) }]
    (by decide)

variable (quoted : String -> String)

def validator (key : String) : Check :=
  if key = "llm" then validateLlm
  else if key = "persona" then validatePersona
  else if key = "custom_prompts" then validateCustomPrompts
  else if key = "custom_instructions" then validateInstructions
  else if key = "embedding_config" then validateEmbedding
  else if isCredentialKey key then validateCredential
  else if key = "mcp" then validateMcp
  else if key = "mcp_servers" then validateMcpServers quoted
  else if key = "skill_markets" then validateSkillMarkets quoted
  else if key = "safety_blacklist" then validateSafetyBlacklist quoted
  else if key = "safety_approval" then validateSafetyApproval
  else if key = "safety_permissions" then validateSafetyPermissions quoted
  else if key = "tool_security" then validateToolSecurity
  else if key = "monitoring_config" then validateMonitoringConfig
  else if key = "scheduler_cron" then validateSchedulerCron
  else if key = "webhook_endpoints" then validateWebhookEndpoints
  else if key = "memory_gc_config" then validateMemoryGcConfig
  else if key = "system_timeouts" then validateSystemTimeouts
  else if key = "retry_config" then validateRetryConfig
  else if key = "limits_config" then validateLimitsConfig
  else if key = "polling_config" then validatePollingConfig
  else if key = "agent_timeouts" then validateAgentTimeouts
  else if key = "logging_config" then validateLoggingConfig
  else .test fun _ => some ("unknown key: " ++ key)

def validateValue (draws : Draws) (key : String) (value : JsonValue) : Checked JsonValue :=
  (validator quoted key).run draws value

/-- The value is cleaned, and cleaning it again changes nothing, or it is refused. -/
def Validates (draws : Draws) (key : String) (value : JsonValue) : Prop :=
  (∃ cleaned, validateValue quoted draws key value = .ok cleaned ∧
    ∀ others, validateValue quoted others key cleaned = .ok cleaned) ∨
  ∃ message, validateValue quoted draws key value = .error (.validation message)

/-- A value is cleaned for good or refused, unless the first thing that is wrong with it is
fatal to the check of it. -/
theorem validates_iff (quoted : String -> String) (draws : Draws) (key : String) (value : JsonValue) :
    Validates quoted draws key value <-> (validator quoted key).isFatal draws value = false := by
  rw [← Bool.not_eq_true, ← (validator quoted key).raises_iff draws value]
  unfold Validates validateValue
  cases answer : (validator quoted key).run draws value with
  | ok cleaned =>
    have again := (validator quoted key).idempotent draws value cleaned answer
    exact iff_of_true (.inl ⟨cleaned, rfl, again⟩) (not_raises_ok cleaned)
  | error failure =>
    cases failure with
    | validation message => exact iff_of_true (.inr ⟨message, rfl⟩) (not_raises_refuse message)
    | raised error =>
      refine iff_of_false ?_ fun never => never ⟨error, rfl⟩
      rintro (⟨cleaned, impossible, _⟩ | ⟨message, impossible⟩)
      · cases impossible
      · cases impossible

/-- A list has no hash to look it up with, and an infinite number is no integer. -/
theorem list_and_infinity_uncaught :
    Not (Validates id (fun _ => 0) "persona" (.obj [("preset", .arr [])])) ∧
      Not (Validates id (fun _ => 0) "llm"
        (.obj [("tool_call_max_turns", .float (.infinity false))])) := by
  constructor
  · rintro (⟨cleaned, impossible, _⟩ | ⟨message, impossible⟩)
    · cases impossible
    · cases impossible
  · rintro (⟨cleaned, impossible, _⟩ | ⟨message, impossible⟩)
    · cases impossible
    · cases impossible

end Sdui
end BreadMind
