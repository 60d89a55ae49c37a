import BreadMind.Base.Values

namespace BreadMind
namespace Settings

/-!
# The settings whitelist

Which keys may be written at all, which of them are credentials, and what a
value has to look like.  The validator of a credential key is the one that
matters below; those of the other keys are a parameter, each a function of the
value and of the identifiers it draws while it runs (`scheduler_cron` names the
jobs that came without a name).
-/

def adminOnlyKeys : List String :=
  ["safety_blacklist", "safety_approval", "safety_permissions", "safety_permissions_admin_users",
    "tool_security", "system_timeouts", "retry_config", "limits_config", "polling_config",
    "agent_timeouts", "logging_config"]

def apiKeyNames : List String :=
  ["ANTHROPIC_API_KEY", "GEMINI_API_KEY", "OPENAI_API_KEY", "XAI_API_KEY"]

def restartRequiredKeys : List String := ["embedding_config"]

def phase1Keys : List String :=
  ["llm", "persona", "custom_prompts", "custom_instructions", "embedding_config"]

def phase2Keys : List String :=
  ["mcp", "mcp_servers", "skill_markets", "safety_blacklist", "safety_approval",
    "safety_permissions", "tool_security", "monitoring_config", "scheduler_cron",
    "webhook_endpoints"]

def phase3Keys : List String :=
  ["memory_gc_config", "system_timeouts", "retry_config", "limits_config", "polling_config",
    "agent_timeouts", "logging_config"]

variable (key : String)

def isCredentialKey : Bool :=
  "apikey:".toList.isPrefixOf key.toList

/-- What follows the first colon has to be the name of a known API key. -/
def isAllowedKey : Bool :=
  phase1Keys.contains key || phase2Keys.contains key || phase3Keys.contains key ||
    (isCredentialKey key && apiKeyNames.contains (String.ofList (key.toList.drop "apikey:".length)))

def requiresRestart : Bool :=
  restartRequiredKeys.contains key

/-- A validator refuses a value or fails on it; a refusal is answered, a
failure is not caught by anyone. -/
inductive Failure where
  | validation (message : String)
  | raised (error : PyError)

abbrev Validator := List String -> Json -> Except Failure Json

def validateCredential (value : Json) : Except Failure Json :=
  match value with
  | .str text =>
    if text = "" then .error (.validation "credential value must be non-empty string")
    else .ok (.str text)
  | _ => .error (.validation "credential value must be non-empty string")

/-- The validators of the keys which are not credentials. -/
abbrev Validators := String -> Validator

def validateValue (validators : Validators) (key : String) (draws : List String) (value : Json) :
    Except Failure Json :=
  if isCredentialKey key then validateCredential value
  else if phase1Keys.contains key || phase2Keys.contains key || phase3Keys.contains key then
    validators key draws value
  else .error (.validation ("unknown key: " ++ key))

theorem validateCredential_list (items : List Json) : validateCredential (.arr items) =
      .error (.validation "credential value must be non-empty string") :=
  rfl

end Settings

namespace Json

def number : Json -> Option Rat
  | .bool value => some (if value then 1 else 0)
  | .int value => some value
  | .float value => some value
  | _ => none

mutual

/-- `first == second`.  Dictionaries are compared without their order. -/
def pyEq : Json -> Json -> Bool
  | .null, .null => true
  | .str first, .str second => first == second
  | .arr first, .arr second => pyEqItems first second
  | .obj first, .obj second => first.length == second.length && pyEqFields first second
  | .bool first, second => Json.number (.bool first) == second.number
  | .int first, second => Json.number (.int first) == second.number
  | .float first, second => Json.number (.float first) == second.number
  | _, _ => false

def pyEqItems : List Json -> List Json -> Bool
  | [], [] => true
  | first :: rest, second :: more => pyEq first second && pyEqItems rest more
  | _, _ => false

def pyEqFields : List (String × Json) -> List (String × Json) -> Bool
  | [], _ => true
  | (name, value) :: rest, fields =>
    (match fields.lookup name with
      | some other => pyEq value other
      | none => false) && pyEqFields rest fields

end

end Json

end BreadMind
