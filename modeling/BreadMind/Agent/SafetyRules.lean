import BreadMind.Agent.Safety
import BreadMind.Execution.Dict
import BreadMind.Execution.Machine

namespace BreadMind
namespace Agent

open Execution

/-!
# The rules of the safety guard

The guard keeps its blacklist twice: in categories, and flat for `check`.  A
change either replaces a list or, where a plugin declares its tools, adds to it.
A declaration is a default: it stands until the list it went into is replaced.
-/

/-- A blacklist in categories, with each category once. -/
structure Categories where
  entries : Dict String (List String)
  distinct : entries.keys.Nodup

structure GuardSettings where
  blacklist : Option Categories := none
  requireApproval : Option (List String) := none
  userPermissions : Option (List (String × List String)) := none
  adminUsers : Option (List String) := none

variable (settings : GuardSettings)

def SafetyGuard.construct : SafetyGuard :=
  let blacklist := (settings.blacklist.map Categories.entries).getD []
  { blacklist := blacklist
    requireApproval := settings.requireApproval.getD []
    flatBlacklist := blacklist.flatMap Prod.snd
    userPermissions := settings.userPermissions.getD []
    adminUsers := settings.adminUsers.getD [] }

/-- A new blacklist: a mapping whose values may be missing, or a flat list. -/
inductive BlacklistSetting where
  | categories (entries : List (String × Option (List String)))
  | tools (names : List String)

def BlacklistSetting.normalized : BlacklistSetting -> Dict String (List String)
  | categories entries =>
    entries.foldl (fun table entry => Dict.set entry.1 (entry.2.getD []) table) []
  | tools names => [("default", names)]

/-- New approvals: a list of tools, or a mapping with the tools as its keys. -/
inductive ApprovalSetting where
  | keys (table : List (String × Json))
  | tools (names : List String)

def ApprovalSetting.names : ApprovalSetting -> List String
  | keys table => table.map Prod.fst
  | tools names => names

/-- New permissions: a mapping with `user_permissions` or `admin_users` among its
keys, the permissions of the users alone, or a list of administrators. -/
inductive PermissionsSetting where
  | settings (userPermissions : Option (List (String × List String)))
      (adminUsers : Option (List String))
  | users (userPermissions : List (String × List String))
  | admins (adminUsers : List String)

/-- The arguments of `reload`.  A `tool_security` is only written to the log. -/
structure ReloadSettings where
  blacklist : Option BlacklistSetting := none
  approval : Option ApprovalSetting := none
  permissions : Option PermissionsSetting := none

namespace SafetyGuard

variable (guard : SafetyGuard)

def reloadBlacklist : Option BlacklistSetting -> SafetyGuard
  | none => guard
  | some setting => guard.updateBlacklist setting.normalized

def reloadApproval : Option ApprovalSetting -> SafetyGuard
  | none => guard
  | some setting => guard.updateRequireApproval setting.names

def reloadPermissions : Option PermissionsSetting -> SafetyGuard
  | none => guard
  | some (.settings userPermissions adminUsers) =>
    guard.updateUserPermissions (userPermissions.getD []) adminUsers
  | some (.users userPermissions) => guard.updateUserPermissions userPermissions none
  | some (.admins adminUsers) => { guard with adminUsers := adminUsers }

def reload (settings : ReloadSettings) : SafetyGuard :=
  ((guard.reloadBlacklist settings.blacklist).reloadApproval settings.approval).reloadPermissions
    settings.permissions

end SafetyGuard

inductive RuleChange where
  | updateBlacklist (blacklist : Categories)
  | updateRequireApproval (tools : List String)
  | updateUserPermissions (permissions : List (String × List String))
      (admins : Option (List String))
  | reload (settings : ReloadSettings)
  | mergePluginSafety (pluginName : String) (requireApproval blacklist : List String)

namespace RuleChange

def applyTo (guard : SafetyGuard) : RuleChange -> SafetyGuard
  | updateBlacklist blacklist => guard.updateBlacklist blacklist.entries
  | updateRequireApproval tools => guard.updateRequireApproval tools
  | updateUserPermissions permissions admins => guard.updateUserPermissions permissions admins
  | reload settings => guard.reload settings
  | mergePluginSafety pluginName requireApproval blacklist =>
    guard.mergePluginSafety pluginName requireApproval blacklist

def newBlacklist : RuleChange -> Option (List String)
  | updateBlacklist blacklist => some (blacklist.entries.flatMap Prod.snd)
  | reload settings => settings.blacklist.map fun setting => setting.normalized.flatMap Prod.snd
  | _ => none

def newApproval : RuleChange -> Option (List String)
  | updateRequireApproval tools => some tools
  | reload settings => settings.approval.map ApprovalSetting.names
  | _ => none

def declaredBlacklist : RuleChange -> List String
  | mergePluginSafety _ _ blacklist => blacklist
  | _ => []

def declaredApproval : RuleChange -> List String
  | mergePluginSafety _ requireApproval _ => requireApproval
  | _ => []

end RuleChange

def safetyRules : Machine SafetyGuard RuleChange where
  initial := SafetyGuard.construct settings
  step := RuleChange.applyTo

section Standing

variable {Change Tool : Type}

/-- A tool stands on a list when it was on it at first, or a change named it, and
no later change has replaced the list. -/
def Stands (replacement : Change -> Option (List Tool)) (declared : Change -> List Tool)
    (first : List Tool) (changes : List Change) (tool : Tool) : Prop :=
  (tool ∈ first ∧ ∀ change ∈ changes, replacement change = none) ∨
    ∃ before change later,
      changes = before ++ change :: later ∧
        (tool ∈ (replacement change).getD [] ∨ tool ∈ declared change) ∧
          ∀ other ∈ later, replacement other = none

variable {replacement : Change -> Option (List Tool)} {declared : Change -> List Tool}
variable {first : List Tool} {changes : List Change} {change : Change} {tool : Tool}

theorem stands_nil : Stands replacement declared first [] tool <-> tool ∈ first := by
  constructor
  · intro stands
    rcases stands with ⟨here, _⟩ | ⟨before, change, later, split, _⟩
    · exact here
    · cases before <;> cases split
  · exact fun here => .inl ⟨here, fun change member => (nomatch member)⟩

theorem stands_append_singleton : Stands replacement declared first (changes ++ [change]) tool <->
      (tool ∈ (replacement change).getD [] ∨ tool ∈ declared change) ∨
        replacement change = none ∧ Stands replacement declared first changes tool := by
  constructor
  · intro stands
    rcases stands with ⟨here, kept⟩ | ⟨before, current, later, split, named, kept⟩
    · right
      refine ⟨kept change (List.mem_append_right _ (List.mem_singleton.mpr rfl)), .inl ⟨here, ?_⟩⟩
      exact fun other member => kept other (List.mem_append_left _ member)
    · rcases List.eq_nil_or_concat later with same | ⟨shorter, final, same⟩
      · subst same
        rcases List.append_inj' split rfl with ⟨_, singleton⟩
        cases singleton
        exact .inl named
      · subst same
        rw [List.concat_eq_append, ← List.cons_append, ← List.append_assoc] at split
        rcases List.append_inj' split rfl with ⟨earlier, singleton⟩
        cases singleton
        right
        refine ⟨kept change (by simp), .inr ⟨before, current, shorter, earlier, named, ?_⟩⟩
        exact fun other member => kept other (by simp [member])
  · intro either
    rcases either with named | ⟨keeps, ⟨here, kept⟩ | ⟨before, current, later, split, named, kept⟩⟩
    · exact .inr ⟨changes, change, [], rfl, named, fun other member => (nomatch member)⟩
    · refine .inl ⟨here, ?_⟩
      intro other member
      rcases List.mem_append.mp member with past | last
      · exact kept other past
      · exact List.mem_singleton.mp last ▸ keeps
    · refine .inr ⟨before, current, later ++ [change], ?_, named, ?_⟩
      · rw [split, List.append_assoc, List.cons_append]
      · intro other member
        rcases List.mem_append.mp member with past | last
        · exact kept other past
        · exact List.mem_singleton.mp last ▸ keeps

end Standing

/-! ## The two blacklists, and what they refuse -/

variable (guard : SafetyGuard)

structure SafetyGuard.Consistent : Prop where
  distinct : (Dict.keys guard.blacklist).Nodup
  flat : ∀ tool, tool ∈ guard.flatBlacklist <->
    ∃ entry ∈ guard.blacklist, tool ∈ entry.2

theorem BlacklistSetting.distinct_normalized (setting : BlacklistSetting) :
    setting.normalized.keys.Nodup := by
  cases setting with
  | tools names => exact List.nodup_singleton _
  | categories entries =>
    unfold BlacklistSetting.normalized
    suffices every : ∀ table : Dict String (List String), table.keys.Nodup ->
        (Dict.keys (entries.foldl
          (fun table entry => Dict.set entry.1 (entry.2.getD []) table) table)).Nodup from
      every [] List.nodup_nil
    induction entries with
    | nil => exact fun table distinct => distinct
    | cons entry rest ih => exact fun table distinct => ih _ (Dict.nodup_set distinct _ _)

namespace SafetyGuard

variable {guard : SafetyGuard}

theorem consistent_updateBlacklist {blacklist : Dict String (List String)}
    (distinct : blacklist.keys.Nodup) : (guard.updateBlacklist blacklist).Consistent :=
  ⟨distinct, fun _ => List.mem_flatMap⟩

theorem mem_or_other {blacklist : Dict String (List String)} (distinct : blacklist.keys.Nodup)
    (name tool : String) : (∃ entry ∈ blacklist, tool ∈ entry.2) <->
      tool ∈ (blacklist.lookup name).getD [] ∨
        ∃ entry ∈ Dict.pop name blacklist, tool ∈ entry.2 := by
  constructor
  · intro here
    rcases here with ⟨entry, member, inside⟩
    by_cases same : entry.1 = name
    · left
      subst same
      have found : blacklist.lookup entry.1 = some entry.2 := Dict.lookup_of_mem distinct member
      rw [found]
      exact inside
    · right
      exact ⟨entry, List.mem_filter.mpr ⟨member, by simp [same]⟩, inside⟩
  · intro either
    rcases either with here | ⟨entry, member, inside⟩
    · cases found : blacklist.lookup name with
      | none =>
        rw [found] at here
        cases here
      | some tools =>
        rw [found] at here
        exact ⟨(name, tools), Dict.mem_of_lookup found, here⟩
    · exact ⟨entry, (List.mem_filter.mp member).1, inside⟩

theorem Consistent.mergePluginSafety (consistent : guard.Consistent) (pluginName : String)
    (requireApproval blacklist : List String) :
    (guard.mergePluginSafety pluginName requireApproval blacklist).Consistent := by
  cases blacklist with
  | nil =>
    refine ⟨consistent.distinct, fun tool => ?_⟩
    change tool ∈ guard.flatBlacklist ++ [] <-> _
    rw [List.append_nil]
    exact consistent.flat tool
  | cons first rest =>
    constructor
    · change (pluginName :: Dict.keys (Dict.pop pluginName guard.blacklist)).Nodup
      refine List.nodup_cons.mpr ⟨?_, consistent.distinct.sublist (List.filter_sublist.map _)⟩
      intro member
      rcases List.mem_map.mp member with ⟨entry, kept, same⟩
      have other := (List.mem_filter.mp kept).2
      rw [decide_eq_true same] at other
      cases other
    · intro tool
      change tool ∈ guard.flatBlacklist ++ (first :: rest) <-> ∃ entry ∈ (pluginName, (guard.blacklist.lookup pluginName).getD [] ++ (first :: rest)) ::
          Dict.pop pluginName guard.blacklist, tool ∈ entry.2
      rw [List.mem_append, consistent.flat, mem_or_other consistent.distinct pluginName]
      simp only [List.mem_cons, exists_eq_or_imp, List.mem_append]
      exact or_right_comm

theorem Consistent.reload (consistent : guard.Consistent) (settings : ReloadSettings) :
    (guard.reload settings).Consistent := by
  have lists : (guard.reload settings).blacklist =
      (guard.reloadBlacklist settings.blacklist).blacklist ∧
        (guard.reload settings).flatBlacklist =
          (guard.reloadBlacklist settings.blacklist).flatBlacklist := by
    unfold SafetyGuard.reload
    rcases settings with ⟨blacklist, approval, permissions⟩
    rcases approval with _ | approval <;> rcases permissions with _ | _ | _ | _ <;>
      exact ⟨rfl, rfl⟩
  have kept : (guard.reloadBlacklist settings.blacklist).Consistent := by
    cases settings.blacklist with
    | none => exact consistent
    | some setting => exact consistent_updateBlacklist setting.distinct_normalized
  refine ⟨?_, ?_⟩
  · rw [lists.1]
    exact kept.distinct
  · rw [lists.1, lists.2]
    exact kept.flat

end SafetyGuard

variable (change : RuleChange)

/-- Every change keeps the two blacklists the same: one case for each. -/
theorem RuleChange.consistent {guard : SafetyGuard}
    (consistent : guard.Consistent) : (change.applyTo guard).Consistent := by
  cases change with
  | updateBlacklist blacklist => exact SafetyGuard.consistent_updateBlacklist blacklist.distinct
  | updateRequireApproval tools => exact ⟨consistent.distinct, consistent.flat⟩
  | updateUserPermissions permissions admins => exact ⟨consistent.distinct, consistent.flat⟩
  | reload settings => exact consistent.reload settings
  | mergePluginSafety pluginName requireApproval blacklist =>
    exact consistent.mergePluginSafety pluginName requireApproval blacklist

theorem consistent_after (changes : List RuleChange) :
    ((safetyRules settings).after changes).Consistent := by
  apply Machine.invariant_after
  · rcases settings with ⟨_ | blacklist, approvals, permissions, admins⟩
    · exact ⟨List.nodup_nil, fun _ => List.mem_flatMap⟩
    · exact ⟨blacklist.distinct, fun _ => List.mem_flatMap⟩
  · exact fun guard change consistent => change.consistent consistent

/-! ## What stands after any changes -/

def GuardSettings.firstBlacklist : List String :=
  ((settings.blacklist.map Categories.entries).getD []).flatMap Prod.snd

def GuardSettings.firstApproval : List String :=
  settings.requireApproval.getD []

theorem RuleChange.lists_applyTo (guard : SafetyGuard) (change : RuleChange) :
    (change.applyTo guard).flatBlacklist =
        change.newBlacklist.getD guard.flatBlacklist ++ change.declaredBlacklist ∧
      (change.applyTo guard).requireApproval =
        change.newApproval.getD guard.requireApproval ++ change.declaredApproval := by
  cases change with
  | reload settings =>
    rcases settings with ⟨_ | _, _ | _, _ | _ | _ | _⟩ <;>
      exact ⟨(List.append_nil _).symm, (List.append_nil _).symm⟩
  | mergePluginSafety pluginName requireApproval blacklist => exact ⟨rfl, rfl⟩
  | updateBlacklist _ | updateRequireApproval _ | updateUserPermissions _ _ =>
    exact ⟨(List.append_nil _).symm, (List.append_nil _).symm⟩

/-- Induction on the changes, for a list that each change replaces or adds to. -/
theorem mem_after_iff {settings : GuardSettings} {list : SafetyGuard -> List String}
    {replacement : RuleChange -> Option (List String)} {declared : RuleChange -> List String}
    (one : ∀ guard (change : RuleChange),
      list (change.applyTo guard) = (replacement change).getD (list guard) ++ declared change)
    (changes : List RuleChange) (tool : String) :
    tool ∈ list ((safetyRules settings).after changes) <->
      Stands replacement declared (list (SafetyGuard.construct settings)) changes tool := by
  induction changes using List.reverseRecOn with
  | nil => exact stands_nil.symm
  | append_singleton earlier change ih =>
    rw [Machine.after_append_singleton, stands_append_singleton]
    change tool ∈ list (change.applyTo _) <-> _
    rw [one, List.mem_append, ← ih]
    cases replacement change with
    | none => simp [or_comm]
    | some new => simp

def Blacklisted : List RuleChange -> String -> Prop :=
  Stands RuleChange.newBlacklist RuleChange.declaredBlacklist settings.firstBlacklist

def ApprovalNeeded : List RuleChange -> String -> Prop :=
  Stands RuleChange.newApproval RuleChange.declaredApproval settings.firstApproval

def SafetyGuard.unpermitted (action user : String) : Bool :=
  !guard.userPermissions.isEmpty &&
    match guard.userPermissions.lookup user with
    | none => true
    | some allowedTools => !allowedTools.isEmpty && !allowedTools.contains action

theorem SafetyGuard.check_ordinary {guard : SafetyGuard} {action user : String}
    (ordinary : user ∉ guard.adminUsers) : guard.check action user =
      if guard.unpermitted action user = true ∨ action ∈ guard.flatBlacklist then .deny
      else if action ∈ guard.requireApproval then .requireApproval else .allow := by
  have noAdmin : guard.adminUsers.contains user = false := by simpa using ordinary
  change (if _ = true then SafetyResult.allow else if guard.unpermitted action user = true then _
    else _) = _
  rw [noAdmin]
  cases guard.unpermitted action user <;> simp

theorem SafetyGuard.check_deny_iff {guard : SafetyGuard} {action user : String}
    (ordinary : user ∉ guard.adminUsers) : guard.check action user = .deny <->
      guard.unpermitted action user = true ∨ action ∈ guard.flatBlacklist := by
  rw [check_ordinary ordinary]
  split
  case isTrue denied => exact iff_of_true rfl denied
  case isFalse free =>
    refine iff_of_false ?_ free
    split <;> exact SafetyResult.noConfusion

theorem SafetyGuard.check_allow_iff {guard : SafetyGuard} {action user : String}
    (ordinary : user ∉ guard.adminUsers) : guard.check action user = .allow <->
      guard.unpermitted action user = false ∧ action ∉ guard.flatBlacklist ∧
        action ∉ guard.requireApproval := by
  rw [check_ordinary ordinary, ← Bool.not_eq_true, ← and_assoc, ← not_or]
  split
  case isTrue denied => exact iff_of_false SafetyResult.noConfusion fun both => both.1 denied
  case isFalse free =>
    split
    case isTrue gated => exact iff_of_false SafetyResult.noConfusion fun both => both.2 gated
    case isFalse ungated => exact iff_of_true rfl ⟨free, ungated⟩

/-- After any changes the two blacklists agree, and to a user who is no administrator
a tool is denied or needs approval exactly as the rules that stand have it. -/
theorem safety_rules_hold (settings : GuardSettings) (changes : List RuleChange) :
    (∀ tool, tool ∈ ((safetyRules settings).after changes).flatBlacklist <->
      ∃ entry ∈ ((safetyRules settings).after changes).blacklist, tool ∈ entry.2) ∧
    ∀ user ∉ ((safetyRules settings).after changes).adminUsers, ∀ tool,
      (((safetyRules settings).after changes).check tool user = .deny <->
        ((safetyRules settings).after changes).unpermitted tool user = true ∨
          Blacklisted settings changes tool) ∧
      (((safetyRules settings).after changes).check tool user = .allow <->
        ((safetyRules settings).after changes).unpermitted tool user = false ∧
          Not (Blacklisted settings changes tool) ∧ Not (ApprovalNeeded settings changes tool)) ∧
      ∀ before pluginName requireApproval blacklist later,
        changes = before ++ .mergePluginSafety pluginName requireApproval blacklist :: later ->
          (tool ∈ blacklist -> (∀ change ∈ later, change.newBlacklist = none) ->
            ((safetyRules settings).after changes).check tool user = .deny) ∧
          (tool ∈ requireApproval -> (∀ change ∈ later, change.newApproval = none) ->
            ((safetyRules settings).after changes).check tool user ≠ .allow) := by
  have denied := @mem_after_iff settings _ _ _ (fun guard change => (change.lists_applyTo guard).1) changes
  have gated := @mem_after_iff settings _ _ _ (fun guard change => (change.lists_applyTo guard).2) changes
  refine ⟨(consistent_after settings changes).flat, ?_⟩
  intro user ordinary tool
  have deny := @SafetyGuard.check_deny_iff _ tool _ ordinary
  have allow := @SafetyGuard.check_allow_iff _ tool _ ordinary
  rw [denied] at deny
  rw [denied, gated] at allow
  refine ⟨deny, allow, ?_⟩
  intro before pluginName requireApproval blacklist later split
  constructor
  · intro declared kept
    exact deny.mpr (.inr (.inr ⟨before, _, later, split, .inr declared, kept⟩))
  · intro declared kept free
    exact (allow.mp free).2.2 (.inr ⟨before, _, later, split, .inr declared, kept⟩)

/-- A plugin's tool, and a reload of the blacklist that does not name it. -/
theorem reload_drops_declaration :
    "mia" ∉ ((safetyRules {}).after [.mergePluginSafety "disks" [] ["wipe"],
        .reload { blacklist := some (.tools ["shutdown"]) }]).adminUsers ∧
      ((safetyRules {}).after [.mergePluginSafety "disks" [] ["wipe"]]).check "wipe" "mia" = .deny ∧
      ((safetyRules {}).after [.mergePluginSafety "disks" [] ["wipe"],
        .reload { blacklist := some (.tools ["shutdown"]) }]).check "wipe" "mia" = .allow := by
  decide

end Agent
end BreadMind
