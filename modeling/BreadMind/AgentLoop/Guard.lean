import BreadMind.Agent.Safety

namespace BreadMind
namespace AgentLoop

/-!
# The safety guard of the message loop

A call is judged by its name and by the text of its arguments: first against
the blocked patterns, then against the permission rules, and then by the level
of autonomy.  What Python makes of a dictionary's text, of upper case and of
the classes of characters is a parameter.
-/

structure PythonText where
  str : Json -> String
  lower : String -> String
  isWord : Char -> Bool
  isSpace : Char -> Bool

/-- `fnmatch`, which does not fold the case of letters. -/
inductive GlobItem where
  | star
  | any
  | set (negated : Bool) (ranges : List (Char × Char))
  | exactly (expected : Char)

/-- The ranges between the brackets; a single letter is a range of its own. -/
def setRanges : List Char -> List (Char × Char)
  | low :: '-' :: high :: rest => (low, high) :: setRanges rest
  | letter :: rest => (letter, letter) :: setRanges rest
  | [] => []

variable (text : List Char)

def bracketed : Option (List Char × List Char) :=
  let closed := fun (start rest : List Char) =>
    match rest.dropWhile (· != ']') with
    | [] => none
    | _ :: following => some (start ++ rest.takeWhile (· != ']'), following)
  match text with
  | '!' :: ']' :: rest => closed ['!', ']'] rest
  | ']' :: rest => closed [']'] rest
  | _ => closed [] text

/-- The items of a pattern; each round reads at least one letter of it. -/
def globItems : Nat -> List Char -> List GlobItem
  | 0, _ => []
  | _ + 1, [] => []
  | rounds + 1, '*' :: rest => .star :: globItems rounds rest
  | rounds + 1, '?' :: rest => .any :: globItems rounds rest
  | rounds + 1, '[' :: rest =>
    match bracketed rest with
    | none => .exactly '[' :: globItems rounds rest
    | some ('!' :: inside, following) => .set true (setRanges inside) :: globItems rounds following
    | some (inside, following) => .set false (setRanges inside) :: globItems rounds following
  | rounds + 1, letter :: rest => .exactly letter :: globItems rounds rest

def GlobItem.admits : GlobItem -> Char -> Bool
  | .star, _ => true
  | .any, _ => true
  | .set negated ranges, found =>
    negated != ranges.any fun range => decide (range.1 ≤ found) && decide (found ≤ range.2)
  | .exactly expected, found => expected == found

def globMatches : List GlobItem -> List Char -> Bool
  | [], text => text.isEmpty
  | .star :: items, text => text.tails.any (globMatches items)
  | _ :: _, [] => false
  | item :: items, found :: rest => item.admits found && globMatches items rest

def fnmatch (name pattern : String) : Bool :=
  globMatches (globItems pattern.length pattern.toList) name.toList

/-! ## The guard -/

def containsText (part : List Char) : Bool :=
  text.tails.any part.isPrefixOf

def reEscape (pattern : String) : String :=
  String.ofList (pattern.toList.flatMap fun letter =>
    if "()[]\x7b\x7d?*+-|^$\\.&~# \t\n\r\x0b\x0c".toList.contains letter then ['\\', letter]
    else [letter])

inductive WordEnd where
  | boundary
  | space

def destructivePatterns : List (String × WordEnd) :=
  [("delete", .boundary), ("remove", .boundary), ("drop", .boundary), ("kill", .boundary),
    ("restart", .boundary), ("reboot", .boundary), ("stop", .boundary), ("destroy", .boundary),
    ("rm", .space), ("shutdown", .boundary)]

def destructiveTools : List String :=
  ["k8s_pods_delete", "proxmox_delete_vm", "proxmox_delete_lxc",
    "proxmox_stop_vm", "proxmox_reboot_vm", "proxmox_shutdown_vm"]

def externalTools : List String :=
  ["web_search", "web_fetch", "shell_exec", "file_write"]

def WordEnd.holds (text : PythonText) : WordEnd -> List Char -> Bool
  | .boundary, following => !(following.head?.any text.isWord)
  | .space, following => following.head?.any text.isSpace

/-- `re.search` for a word which starts at a boundary; `previous` is the letter before the text. -/
def findsWord (text : PythonText) (word : List Char) (wordEnd : WordEnd) :
    Option Char -> List Char -> Bool
  | _, [] => false
  | previous, letter :: rest =>
    (!(previous.any text.isWord) && word.isPrefixOf (letter :: rest) &&
        wordEnd.holds text ((letter :: rest).drop word.length)) ||
      findsWord text word wordEnd (some letter) rest

structure PermissionRule where
  toolPattern : String
  argPattern : String
  action : String
  scope : String

structure RuleEntry where
  pattern : String := ""
  action : String := "ask"
  scope : String := "session"

/-- `(.+)\)$`: a final newline may follow. -/
def ruleArgument : Option (List Char) :=
  let line := if text.getLast? = some '\n' then text.dropLast else text
  let inside := line.dropLast
  if line.getLast? = some ')' ∧ inside ≠ [] ∧ Not ('\n' ∈ inside) then some inside else none

/-- `(\S+?)\((.+)\)$`, from behind the first letter; `tool` is what has been read. -/
def ruleParts (text : PythonText) : List Char -> List Char -> Option (List Char × List Char)
  | _, [] => none
  | tool, letter :: rest =>
    match if letter = '(' then ruleArgument rest else none with
    | some argument => some (tool, argument)
    | none => if text.isSpace letter then none else ruleParts text (tool ++ [letter]) rest

def compileRule (text : PythonText) (rule : RuleEntry) : PermissionRule :=
  match rule.pattern.toList with
  | [] => ⟨rule.pattern, "", rule.action, rule.scope⟩
  | first :: rest =>
    match if text.isSpace first then none else ruleParts text [first] rest with
    | some (tool, argument) => ⟨String.ofList tool, String.ofList argument, rule.action, rule.scope⟩
    | none => ⟨rule.pattern, "", rule.action, rule.scope⟩

structure SafetyVerdict where
  allowed : Bool
  needsApproval : Bool := false
  reason : String := ""

structure SafetyGuard where
  autonomy : String := "confirm-destructive"
  blockedPatterns : List String := []
  approveRequired : List String := []
  permissionRules : List RuleEntry := []

namespace SafetyGuard

variable (text : PythonText)

variable (guard : SafetyGuard) (toolName : String) (arguments : Json)

/-- `_check_permission_rules`: what the first rule that fits says. -/
def checkPermissionRules : Option String :=
  let argsStr := text.str arguments
  ((guard.permissionRules.map (compileRule text)).find? fun rule =>
    fnmatch toolName rule.toolPattern &&
      (rule.argPattern == "" || fnmatch argsStr ("*" ++ rule.argPattern ++ "*"))).map
    PermissionRule.action

def isDestructive : Bool :=
  destructiveTools.contains toolName ||
    destructivePatterns.any fun pattern =>
      findsWord text pattern.1.toList pattern.2 none (text.lower (text.str arguments)).toList

def isExternal : Bool :=
  externalTools.contains toolName

def checkAutonomy : SafetyVerdict :=
  if guard.autonomy = "auto" then ⟨true, false, ""⟩
  else if guard.autonomy = "confirm-all" then ⟨true, true, "confirm-all mode"⟩
  else if guard.approveRequired.contains toolName then
    ⟨true, true, "Tool '" ++ toolName ++ "' requires approval"⟩
  else if isDestructive text toolName arguments then ⟨true, true, "Destructive action detected"⟩
  else if guard.autonomy = "confirm-unsafe" && isExternal toolName then
    ⟨true, true, "External action in confirm-unsafe mode"⟩
  else ⟨true, false, ""⟩

def check : SafetyVerdict :=
  match guard.blockedPatterns.find? fun pattern =>
      containsText (text.str arguments).toList pattern.toList with
  | some pattern => ⟨false, false, "Blocked pattern matched: " ++ reEscape pattern⟩
  | none =>
    match guard.checkPermissionRules text toolName arguments with
    | some "allow" => ⟨true, false, ""⟩
    | some "deny" => ⟨false, false, "Denied by permission rule"⟩
    | some "ask" => ⟨true, true, "Permission rule requires approval"⟩
    | _ => guard.checkAutonomy text toolName arguments

end SafetyGuard

/-- `_record_audit` without its times; the loop gives no user and no trace. -/
structure AuditEntry where
  toolName : String
  arguments : Json
  verdict : String
  reason : String
  approved : Option Bool

def SafetyVerdict.audited (verdict : SafetyVerdict) (toolName : String) (arguments : Json) :
    AuditEntry where
  toolName := toolName
  arguments := arguments
  verdict :=
    if !verdict.allowed then "deny" else if verdict.needsApproval then "approve_required" else "allow"
  reason := verdict.reason
  approved := if verdict.needsApproval then none else if verdict.allowed then some true else none

end AgentLoop
end BreadMind
