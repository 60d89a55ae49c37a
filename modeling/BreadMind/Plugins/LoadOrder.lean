import BreadMind.Base.Values
import BreadMind.Execution.Dict
import BreadMind.Execution.Graphs
import BreadMind.Execution.Machine
import Mathlib.Data.List.Sort

namespace BreadMind
namespace Plugins

open Execution

/-!
# The order in which plugins are loaded

The plugins are taken up in the order of their priorities, once each.  A plugin is skipped if a
dependency has not been loaded by then.
-/

structure PluginManifest where
  name : String
  version : String
  description : String := ""
  priority : Int := 100
  dependsOn : List String := []
  requires : List String := []
  pluginDir : String

/-- How the components of a plugin are loaded and set up.  `registers` are the services which
`setup` adds to the container.  Nothing catches what is raised beside `setup`, nor what is raised
once the plugin counts as loaded: by the registry, or by the hooks after it. -/
inductive Setup where
  | done (registers : List String)
  | failed (registers : List String)
  | raises (registers : List String) (error : PyError)
  | raisesLoaded (registers : List String) (recorded : Bool) (error : PyError)

def Setup.calm : Setup -> Bool
  | done _ | failed _ => true
  | raises .. | raisesLoaded .. => false

structure RegistryInfo where
  version : String
  enabled : Option Bool
  path : String
  description : String

/-- `loaded` holds the manifests of the loaded plugins, and `services` the keys of the container. -/
structure PluginManager where
  loaded : Dict String PluginManifest
  registry : Dict String RegistryInfo
  services : List String

namespace PluginManager

variable (setup : PluginManifest -> List String -> Setup) (manager : PluginManager)

def afterSetup (manifest : PluginManifest) (registers : List String) (recorded : Bool) :
    PluginManager where
  loaded := manager.loaded.set manifest.name manifest
  registry :=
    if recorded then
      manager.registry.set manifest.name {
        version := manifest.version
        enabled := some true
        path := manifest.pluginDir
        description := manifest.description }
    else manager.registry
  services := manager.services ++ registers

/-- `load_from_directory`, from the manifest on.  An exception comes with the manager as it is then. -/
def loadFromDirectory (manifest : PluginManifest) : Except (PyError × PluginManager) PluginManager :=
  if ∃ dep ∈ manifest.dependsOn, dep ∉ manager.loaded.keys then .ok manager
  else if ∃ service ∈ manifest.requires, service ∉ manager.services then .ok manager
  else
    match setup manifest manager.services with
    | .raises registers error =>
      .error (error, { manager with services := manager.services ++ registers })
    | .failed registers => .ok { manager with services := manager.services ++ registers }
    | .done registers => .ok (manager.afterSetup manifest registers true)
    | .raisesLoaded registers recorded error =>
      .error (error, manager.afterSetup manifest registers recorded)

/-- `info and not info.get("enabled", True)`. -/
def disabled (manifest : PluginManifest) : Bool :=
  (manager.registry.lookup manifest.name).any fun info => !info.enabled.getD true

/-- One round of the loop of `load_all`. -/
def loadNext (manifest : PluginManifest) : Except (PyError × PluginManager) PluginManager :=
  if manager.disabled manifest then .ok manager else manager.loadFromDirectory setup manifest

def byPriority (manifests : List PluginManifest) : List PluginManifest :=
  manifests.insertionSort fun first second => first.priority ≤ second.priority

/-- `load_all`, with the manifests that `discover` found in the order of the directory listing. -/
def loadAll (discovered : List PluginManifest) : Except (PyError × PluginManager) PluginManager :=
  (byPriority discovered).foldlM (loadNext setup) manager

end PluginManager

/-! ## What should be loaded -/

section

variable (setup : PluginManifest -> List String -> Setup) (manager : PluginManager)
  (discovered : List PluginManifest)

/-- The plugin depends on another one which is not loaded yet. -/
def Depends (manifest other : PluginManifest) : Prop :=
  manifest ∈ discovered ∧ other ∈ discovered ∧ other.name ∈ manifest.dependsOn ∧
    other.name ∉ manager.loaded.keys

/-- The plugin is present and enabled, its services are available and its setup does not fail. -/
structure Loadable (manifest : PluginManifest) : Prop where
  present : manifest ∈ discovered
  enabled : manager.disabled manifest = false
  served : ∀ service ∈ manifest.requires, service ∈ manager.services
  works : ∀ services, manifest.requires ⊆ services ->
    ∃ registers, setup manifest services = .done registers
  dependencies : ∀ dep ∈ manifest.dependsOn,
    dep ∈ manager.loaded.keys ∨ ∃ other ∈ discovered, other.name = dep

/-- The plugin and its transitive dependencies are loadable. -/
def Entitled (manifest : PluginManifest) : Prop :=
  ∀ other, Relation.ReflTransGen (Depends manager discovered) manifest other ->
    Loadable setup manager discovered other

/-- `load_all` comes to its end, and every plugin that should be loaded is. -/
def LoadsEntitled : Prop :=
  ∃ final, manager.loadAll setup discovered = .ok final ∧
    ∀ manifest, Entitled setup manager discovered manifest -> manifest.name ∈ final.loaded.keys

/-- Whatever the plugin depends on, directly or not, is taken up before what depends on it. -/
def InOrder (manifest : PluginManifest) : Prop :=
  ∀ upper lower, Relation.ReflTransGen (Depends manager discovered) manifest upper ->
    Depends manager discovered upper lower -> ∀ before after,
      PluginManager.byPriority discovered = before ++ upper :: after -> lower ∈ before

end

section

variable {setup : PluginManifest -> List String -> Setup} {manager : PluginManager}
  {discovered : List PluginManifest}

theorem Entitled.dependency {manifest other : PluginManifest}
    (entitled : Entitled setup manager discovered manifest)
    (depends : Depends manager discovered manifest other) : Entitled setup manager discovered other :=
  fun _ path => entitled _ (.head depends path)

theorem InOrder.dependency {manifest other : PluginManifest} (ordered : InOrder manager discovered manifest)
    (depends : Depends manager discovered manifest other) : InOrder manager discovered other :=
  fun upper lower path => ordered upper lower (.head depends path)

structure Progress (setup : PluginManifest -> List String -> Setup) (manager : PluginManager)
    (discovered before : List PluginManifest) (current : PluginManager) : Prop where
  loaded : ∀ manifest ∈ before, Entitled setup manager discovered manifest ->
    InOrder manager discovered manifest -> manifest.name ∈ current.loaded.keys
  kept : manager.loaded.keys ⊆ current.loaded.keys
  services : manager.services ⊆ current.services
  enabled : ∀ manifest, manager.disabled manifest = false -> current.disabled manifest = false

variable {before : List PluginManifest} {current : PluginManager} {manifest : PluginManifest}

theorem Progress.skip (progress : Progress setup manager discovered before current)
    (left : Entitled setup manager discovered manifest -> Not (InOrder manager discovered manifest))
    (registers : List String) : Progress setup manager discovered (before ++ [manifest])
      { current with services := current.services ++ registers } where
  loaded other member entitled ordered := by
    rcases List.mem_append.mp member with earlier | last
    · exact progress.loaded other earlier entitled ordered
    · rw [List.mem_singleton.mp last] at entitled ordered
      exact absurd ordered (left entitled)
  kept := progress.kept
  services := List.Subset.trans progress.services (List.subset_append_left _ _)
  enabled := progress.enabled

theorem Progress.load (progress : Progress setup manager discovered before current)
    (manifest : PluginManifest) (registers : List String) :
    Progress setup manager discovered (before ++ [manifest])
      (current.afterSetup manifest registers true) := by
  have keys (name : String) : name ∈ (current.afterSetup manifest registers true).loaded.keys <->
      name ∈ current.loaded.keys ∨ name = manifest.name := by
    unfold PluginManager.afterSetup
    dsimp only
    rw [Dict.keys_set]
    split
    case isTrue there => exact ⟨.inl, fun either => either.elim id fun same => same ▸ there⟩
    case isFalse => exact List.mem_append.trans (or_congr_right List.mem_singleton)
  refine ⟨?_, ?_, List.Subset.trans progress.services (List.subset_append_left _ _), ?_⟩
  · intro other member entitled ordered
    rcases List.mem_append.mp member with earlier | last
    · exact (keys other.name).mpr (.inl (progress.loaded other earlier entitled ordered))
    · exact (keys other.name).mpr (.inr (congrArg _ (List.mem_singleton.mp last)))
  · exact fun name there => (keys name).mpr (.inl (progress.kept there))
  · intro other enabled
    unfold PluginManager.disabled PluginManager.afterSetup
    dsimp only
    rw [if_pos rfl, Dict.lookup_set]
    split
    · rfl
    · exact progress.enabled other enabled

theorem Progress.next {rest : List PluginManifest}
    (progress : Progress setup manager discovered before current)
    (calm : ∀ services, (setup manifest services).calm = true)
    (turn : PluginManager.byPriority discovered = before ++ manifest :: rest) :
    ∃ next, current.loadNext setup manifest = .ok next ∧
      Progress setup manager discovered (before ++ [manifest]) next := by
  have skipped (left : Entitled setup manager discovered manifest ->
      Not (InOrder manager discovered manifest)) :
      Progress setup manager discovered (before ++ [manifest]) current := by
    simpa only [List.append_nil] using progress.skip left []
  unfold PluginManager.loadNext PluginManager.loadFromDirectory
  split
  case isTrue disabled =>
    refine ⟨current, rfl, skipped fun entitled => ?_⟩
    rw [progress.enabled manifest (entitled manifest .refl).enabled] at disabled
    cases disabled
  split
  case isTrue missing =>
    rcases missing with ⟨dep, depends, absent⟩
    refine ⟨current, rfl, skipped fun entitled ordered => absent ?_⟩
    have loadable := entitled manifest .refl
    by_cases already : dep ∈ manager.loaded.keys
    · exact progress.kept already
    rcases loadable.dependencies dep depends with there | ⟨other, present, rfl⟩
    · exact absurd there already
    have depends : Depends manager discovered manifest other :=
      ⟨loadable.present, present, depends, already⟩
    exact progress.loaded other (ordered manifest other .refl depends before rest turn)
      (entitled.dependency depends) (ordered.dependency depends)
  split
  case isTrue missing =>
    rcases missing with ⟨service, needed, absent⟩
    refine ⟨current, rfl, skipped fun entitled => absurd ?_ absent⟩
    exact progress.services ((entitled manifest .refl).served service needed)
  have quiet := calm current.services
  split
  case h_1 raised =>
    rw [raised] at quiet
    cases quiet
  case h_2 registers failed =>
    refine ⟨_, rfl, progress.skip (fun entitled => ?_) registers⟩
    have loadable := entitled manifest .refl
    rcases loadable.works current.services fun service needed =>
      progress.services (loadable.served service needed) with ⟨others, works⟩
    rw [failed] at works
    cases works
  case h_3 registers done => exact ⟨_, rfl, progress.load manifest registers⟩
  case h_4 raised =>
    rw [raised] at quiet
    cases quiet

/-- The rounds that are left, by induction on them. -/
theorem Progress.finish {rest : List PluginManifest}
    (progress : Progress setup manager discovered before current)
    (calm : ∀ manifest ∈ rest, ∀ services, (setup manifest services).calm = true)
    (turns : PluginManager.byPriority discovered = before ++ rest) :
    ∃ final, rest.foldlM (PluginManager.loadNext setup) current = .ok final ∧
      Progress setup manager discovered (before ++ rest) final := by
  induction rest generalizing before current with
  | nil => exact ⟨current, rfl, by simpa only [List.append_nil] using progress⟩
  | cons manifest rest ih =>
    rcases progress.next (calm manifest List.mem_cons_self) turns with ⟨next, loads, further⟩
    rw [List.append_cons] at turns
    rw [List.foldlM_cons, loads, List.append_cons]
    exact ih further (fun other member => calm other (List.mem_cons_of_mem _ member)) turns

/-- Where no plugin raises, every plugin that should be loaded is loaded, if its dependencies
come before what depends on them. -/
theorem loadAll_entitled
    (calm : ∀ manifest ∈ discovered, ∀ services, (setup manifest services).calm = true) :
    ∃ final, manager.loadAll setup discovered = .ok final ∧
      ∀ manifest, Entitled setup manager discovered manifest -> InOrder manager discovered manifest ->
        manifest.name ∈ final.loaded.keys := by
  have all (other : PluginManifest) : other ∈ PluginManager.byPriority discovered <->
      other ∈ discovered := List.mem_insertionSort _
  have start : Progress setup manager discovered [] manager :=
    ⟨nofun, List.Subset.refl _, List.Subset.refl _, fun _ enabled => enabled⟩
  rcases start.finish (fun other member => calm other ((all other).mp member)) rfl with
    ⟨final, loads, progress⟩
  refine ⟨final, loads, fun manifest entitled => ?_⟩
  exact progress.loaded manifest ((all manifest).mpr (entitled manifest .refl).present) entitled

end

def agentAndCore (priority : Int) : List PluginManifest :=
  [{ name := "agent-tools", version := "1.0.0", priority := 10, dependsOn := ["core-tools"]
     pluginDir := "agent_tools" },
   { name := "core-tools", version := "1.0.0", priority, pluginDir := "core_tools" }]

def webManifest : PluginManifest :=
  { name := "web", version := "1.0.0", priority := 30, dependsOn := ["core-tools", "auth"]
    pluginDir := "web" }

def withAuth : PluginManager :=
  ⟨[("auth", { name := "auth", version := "1.0.0", pluginDir := "auth" })], [], []⟩

/-- One plugin has its dependencies before it or loaded already, whatever the order of others. -/
theorem loadAll_entitled_web : ∃ final,
    withAuth.loadAll (fun _ _ => .done []) (agentAndCore 20 ++ [webManifest]) = .ok final ∧
      "web" ∈ final.loaded.keys := by
  have needs : ∀ upper ∈ agentAndCore 20 ++ [webManifest], ∀ lower ∈ agentAndCore 20 ++ [webManifest],
      lower.name ∈ upper.dependsOn -> lower.name = "core-tools" ∧ upper.name ≠ "core-tools" := by
    decide
  rcases @loadAll_entitled (fun _ _ => .done []) withAuth (agentAndCore 20 ++ [webManifest])
    (fun _ _ _ => rfl) with ⟨final, loads, every⟩
  refine ⟨final, loads, every webManifest (fun other path => ?_) (fun upper lower path depends => ?_)⟩
  · have member : other ∈ agentAndCore 20 ++ [webManifest] := by
      rcases path.cases_tail with rfl | ⟨_, _, _, there, _⟩
      · exact List.mem_append_right _ List.mem_cons_self
      · exact there
    clear path
    refine ⟨member, rfl, ?_, fun _ _ => ⟨_, rfl⟩, ?_⟩ <;> revert other <;> decide
  · have core := (needs upper depends.1 lower depends.2.1 depends.2.2.1).1
    have apart := (needs upper depends.1 lower depends.2.1 depends.2.2.1).2
    rcases path.cases_tail with rfl | ⟨middle, _, above⟩
    · intro before after split
      have whole : agentAndCore 20 ++ [webManifest] = before ++ webManifest :: after := split
      have member := depends.2.1
      rw [whole] at member
      rcases List.mem_append.mp member with earlier | later
      · exact earlier
      have last : after = [] := by
        rcases List.eq_nil_or_concat' after with none | ⟨others, final, rfl⟩
        · exact none
        have inits : before ++ webManifest :: (others ++ [final]) =
            (before ++ webManifest :: others) ++ [final] := by
          rw [List.append_assoc, List.cons_append]
        have inside : webManifest ∈ agentAndCore 20 := by
          rw [(List.append_inj' (whole.trans inits) rfl).1]
          exact List.mem_append_right before List.mem_cons_self
        have absent : ∀ manifest ∈ agentAndCore 20, manifest.name ≠ "web" := by decide
        exact absurd rfl (absent webManifest inside)
      rw [last, List.mem_singleton] at later
      exact absurd (later ▸ core) (by decide)
    · exact absurd (needs middle above.1 upper above.2.1 above.2.2.1).1 apart

/-- The dependency is taken up after the plugin that depends on it. -/
theorem loadAll_out_of_order : Acyclic (Depends ⟨[], [], []⟩ (agentAndCore 20)) ∧
    ¬ LoadsEntitled (fun _ _ => .done []) ⟨[], [], []⟩ (agentAndCore 20) := by
  constructor
  · have descends : ∀ source ∈ agentAndCore 20, ∀ target ∈ agentAndCore 20,
        target.name ∈ source.dependsOn -> target.dependsOn.length < source.dependsOn.length := by
      decide
    exact acyclic_of_rank _ fun source target depends =>
      descends source depends.1 target depends.2.1 depends.2.2.1
  · rintro ⟨final, loads, every⟩
    have loadable : ∀ manifest ∈ agentAndCore 20,
        Loadable (fun _ _ => .done []) ⟨[], [], []⟩ (agentAndCore 20) manifest := by
      intro manifest member
      refine ⟨member, rfl, ?_, fun _ _ => ⟨_, rfl⟩, ?_⟩ <;> revert manifest <;> decide
    have loaded := every _ fun other path => loadable other <| by
      rcases path.cases_tail with rfl | ⟨_, _, _, there, _⟩
      · exact List.mem_cons_self
      · exact there
    cases loads
    revert loaded
    decide

/-! ## Plugins that come and go -/

/-- `load_all` is a series of loads. -/
inductive ManagerInput where
  | load (manifest : PluginManifest)
  | unload (name : String)

namespace PluginManager

/-- A load that raises leaves the manager as it is then. -/
def step (setup : PluginManifest -> List String -> Setup) (manager : PluginManager) :
    ManagerInput -> PluginManager
  | .load manifest =>
    match manager.loadFromDirectory setup manifest with
    | .ok next => next
    | .error (_, left) => left
  | .unload name => { manager with loaded := Dict.pop name manager.loaded }

end PluginManager

def managerMachine (setup : PluginManifest -> List String -> Setup) (registry : Dict String RegistryInfo)
    (services : List String) : Machine PluginManager ManagerInput where
  initial := ⟨[], registry, services⟩
  step := PluginManager.step setup

def Supported (manager : PluginManager) : Prop :=
  ∀ name manifest, manager.loaded.lookup name = some manifest ->
    ∀ dep ∈ manifest.dependsOn, dep ∈ manager.loaded.keys

def UnloadsUnneeded (manager : PluginManager) : ManagerInput -> Prop
  | .load _ => True
  | .unload name => ∀ other manifest, other ≠ name -> manager.loaded.lookup other = some manifest ->
      name ∉ manifest.dependsOn

theorem supported_afterSetup {manager : PluginManager} {manifest : PluginManifest}
    (supported : Supported manager) (met : ∀ dep ∈ manifest.dependsOn, dep ∈ manager.loaded.keys)
    (registers : List String) (recorded : Bool) :
    Supported (manager.afterSetup manifest registers recorded) := by
  intro name other found dep depends
  unfold PluginManager.afterSetup at found ⊢
  dsimp only at found ⊢
  have before : dep ∈ manager.loaded.keys := by
    rw [Dict.lookup_set] at found
    split at found
    · cases found
      exact met dep depends
    · exact supported name other found dep depends
  rw [Dict.keys_set]
  split
  · exact before
  · exact List.mem_append_left _ before

theorem supported_load {setup : PluginManifest -> List String -> Setup} {manager : PluginManager}
    (manifest : PluginManifest) (supported : Supported manager) :
    Supported (manager.step setup (.load manifest)) := by
  unfold PluginManager.step PluginManager.loadFromDirectory
  by_cases unmet : ∃ dep ∈ manifest.dependsOn, dep ∉ manager.loaded.keys
  · simp only [if_pos unmet]
    exact supported
  · have met : ∀ dep ∈ manifest.dependsOn, dep ∈ manager.loaded.keys := fun dep depends =>
      of_not_not fun absent => unmet ⟨dep, depends, absent⟩
    simp only [if_neg unmet]
    by_cases unserved : ∃ service ∈ manifest.requires, service ∉ manager.services
    · simp only [if_pos unserved]
      exact supported
    · simp only [if_neg unserved]
      cases setup manifest manager.services with
      | raises registers error => exact supported
      | failed registers => exact supported
      | done registers => exact supported_afterSetup supported met registers true
      | raisesLoaded registers recorded error =>
        exact supported_afterSetup supported met registers recorded

theorem supported_step (setup : PluginManifest -> List String -> Setup) {manager : PluginManager}
    (supported : Supported manager) (input : ManagerInput) :
    Supported (manager.step setup input) <-> UnloadsUnneeded manager input := by
  cases input with
  | load manifest =>
    exact iff_of_true (supported_load manifest supported) trivial
  | unload name =>
    have kept (dep : String) : dep ∈ (manager.step setup (.unload name)).loaded.keys <->
        dep ∈ manager.loaded.keys ∧ dep ≠ name := by
      simp [PluginManager.step, Dict.pop, Dict.keys]
    constructor
    · intro still other manifest apart found depends
      have loaded := still other manifest ((Dict.lookup_pop_of_ne _ apart).trans found) name depends
      exact ((kept name).mp loaded).2 rfl
    · intro unneeded other manifest found dep depends
      rcases Dict.lookup_of_pop found with ⟨apart, before⟩
      exact (kept dep).mpr ⟨supported other manifest before dep depends,
        fun same => unneeded other manifest apart before (same ▸ depends)⟩

/-- Unloading is the only step that can take away what a loaded plugin depends on. -/
theorem supported_iff (setup : PluginManifest -> List String -> Setup) (registry : Dict String RegistryInfo)
    (services : List String) (inputs : List ManagerInput) :
    (managerMachine setup registry services).EveryState Supported inputs <->
      (managerMachine setup registry services).EveryStep UnloadsUnneeded inputs :=
  (managerMachine setup registry services).everyState_iff_everyStep (fun _ => True) nofun trivial
    (fun _ _ _ => trivial) (fun _ input _ supported => supported_step setup supported input) inputs

end Plugins
end BreadMind
