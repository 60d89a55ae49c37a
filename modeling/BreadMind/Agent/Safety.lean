import BreadMind.Base.Values

namespace BreadMind
namespace Agent

/-!
# The safety guard of the agent

The guard knows which tools are forbidden, which ones a person has to approve,
what each user may call, and when a tool was last called where calls have to
cool down.  Its rules may be replaced while the agent runs.
-/

structure ToolCall where
  id : String
  name : String
  arguments : Json

structure ToolResult where
  success : Bool
  output : String
  notFound : Bool := false

inductive SafetyResult where
  | allow
  | deny
  | requireApproval
  deriving DecidableEq

def SafetyResult.value : SafetyResult -> String
  | allow => "ALLOWED"
  | deny => "DENIED"
  | requireApproval => "REQUIRE_APPROVAL"

/-- Times are microseconds. -/
structure SafetyGuard where
  blacklist : List (String × List String) := []
  flatBlacklist : List String := []
  requireApproval : List String := []
  userPermissions : List (String × List String) := []
  adminUsers : List String := []
  cooldowns : List (String × Int) := []
  cooldownCheckCount : Nat := 0

namespace SafetyGuard

variable (guard : SafetyGuard)

def check (action user : String) : SafetyResult :=
  if guard.adminUsers.contains user then .allow
  else if !guard.userPermissions.isEmpty &&
      (match guard.userPermissions.lookup user with
        | none => true
        | some allowedTools => !allowedTools.isEmpty && !allowedTools.contains action) then .deny
  else if guard.flatBlacklist.contains action then .deny
  else if guard.requireApproval.contains action then .requireApproval
  else .allow

def cooldownMinutes : Int := 10

def cooldownSpan : Int := cooldownMinutes * 60 * 1000000

/-- `_cleanup_expired_cooldowns`. -/
def cleanupExpired (now : Int) : SafetyGuard :=
  { guard with cooldowns := guard.cooldowns.filter fun entry => now - entry.2 < cooldownSpan }

def checkCooldown (target action : String) (now : Int) : Bool × SafetyGuard :=
  let counted := { guard with cooldownCheckCount := guard.cooldownCheckCount + 1 }
  let cleaned := if counted.cooldownCheckCount % 100 = 0 then counted.cleanupExpired now else counted
  let key := target ++ ":" ++ action
  if (match cleaned.cooldowns.lookup key with
      | some last => decide (now - last < cooldownSpan)
      | none => false) then
    (false, cleaned)
  else
    (true, { cleaned with
      cooldowns := (key, now) :: cleaned.cooldowns.filter fun entry => entry.1 != key })

def updateBlacklist (blacklist : List (String × List String)) : SafetyGuard :=
  { guard with blacklist := blacklist, flatBlacklist := blacklist.flatMap Prod.snd }

def updateRequireApproval (tools : List String) : SafetyGuard :=
  { guard with requireApproval := tools }

def updateUserPermissions (permissions : List (String × List String))
    (admins : Option (List String)) : SafetyGuard :=
  { guard with userPermissions := permissions, adminUsers := admins.getD guard.adminUsers }

def mergePluginSafety (pluginName : String)
    (requireApproval blacklist : List String) : SafetyGuard :=
  let merged := (guard.blacklist.lookup pluginName).getD [] ++ blacklist
  { guard with
    requireApproval := guard.requireApproval ++ requireApproval
    blacklist :=
      if blacklist.isEmpty then guard.blacklist
      else (pluginName, merged) :: guard.blacklist.filter fun entry => entry.1 != pluginName
    flatBlacklist := guard.flatBlacklist ++ blacklist }

end SafetyGuard

inductive GuardChange where
  | blacklist (blacklist : List (String × List String))
  | requireApproval (tools : List String)
  | userPermissions (permissions : List (String × List String)) (admins : Option (List String))
  | plugin (name : String) (requireApproval blacklist : List String)

def SafetyGuard.change (guard : SafetyGuard) : GuardChange -> SafetyGuard
  | .blacklist blacklist => guard.updateBlacklist blacklist
  | .requireApproval tools => guard.updateRequireApproval tools
  | .userPermissions permissions admins => guard.updateUserPermissions permissions admins
  | .plugin name requireApproval blacklist => guard.mergePluginSafety name requireApproval blacklist

end Agent
end BreadMind
