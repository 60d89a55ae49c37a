import Mathlib.Data.List.Perm.Subperm
import Mathlib.Data.Finset.Dedup
import BreadMind.Tools.DependencySoundness

namespace BreadMind
namespace Tools
namespace DependencyGraph

open Execution Relation

/-!
# The order of an installation

Kahn's algorithm counts for each name its dependencies among the names, and
takes one off whenever one of these is done that lists the name as a dependent.
The counts go along one direction of the edges and come down along the other,
so what comes out is all the names exactly if the two agree on them.
-/

variable (graph : DependencyGraph) (names : List String)

variable (name : String)

/-- Count the dependencies of a name that are among the names. -/
def countDependencies (degrees : Dict String Int) : Dict String Int :=
  (graph.getDependencies name).foldl (fun degrees dep =>
    if dep ∈ names then Dict.update name (· + 1) degrees else degrees) degrees

def inDegrees : Dict String Int :=
  names.foldl (fun degrees name => graph.countDependencies names name degrees)
    (names.foldl (fun degrees name => Dict.set name 0 degrees) [])

variable (state : Dict String Int × List String)

/-- One dependency of a dependent is done; the last one makes it wait in the queue. -/
def release (dependent : String) : Dict String Int × List String :=
  match state.1.lookup dependent with
  | none => state
  | some degree =>
    (Dict.set dependent (degree - 1) state.1,
      if degree - 1 = 0 then state.2 ++ [dependent] else state.2)

/-- The names that have dependencies left, and those that wait. -/
def work : Nat :=
  (state.1.countP fun entry => decide (0 < entry.2)) + state.2.length

theorem countP_set {degrees : Dict String Int} {key : String} {degree : Int}
    (found : degrees.lookup key = some degree) (value : Int) :
    ((Dict.set key value degrees).countP fun entry => decide (0 < entry.2)) +
        (if 0 < degree then 1 else 0) =
      (degrees.countP fun entry => decide (0 < entry.2)) + if 0 < value then 1 else 0 := by
  induction degrees with
  | nil => cases found
  | cons entry rest ih =>
    unfold Dict.set
    rw [List.lookup_cons] at found
    by_cases same : entry.1 = key
    · rw [same, beq_self_eq_true] at found
      rw [if_pos same, List.countP_cons, List.countP_cons, ← Option.some.inj found]
      simp only [decide_eq_true_eq]
      omega
    · rw [beq_false_of_ne (Ne.symm same)] at found
      rw [if_neg same, List.countP_cons, List.countP_cons]
      have := ih found
      omega

theorem work_release (dependent : String) : work (release state dependent) = work state := by
  unfold release
  split
  case h_1 => rfl
  case h_2 degree found =>
    have counted := countP_set found (degree - 1)
    unfold work
    dsimp only
    split
    case isTrue last =>
      rw [List.length_append, List.length_singleton]
      rw [if_pos (by omega), if_neg (by omega)] at counted
      omega
    case isFalse more =>
      by_cases positive : 0 < degree
      · rw [if_pos positive, if_pos (by omega)] at counted
        omega
      · rw [if_neg positive, if_neg (by omega)] at counted
        omega

theorem work_releases (dependents : List String) (state : Dict String Int × List String) :
    work (dependents.foldl release state) = work state := by
  induction dependents generalizing state with
  | nil => rfl
  | cons dependent rest ih => rw [List.foldl_cons, ih, work_release]

theorem perm_sorted (names : List String) : (sorted names).Perm names :=
  List.perm_insertionSort _ names

/-- The loop over the queue. -/
def processQueue (degrees : Dict String Int) (queue result : List String) : List String :=
  match queue with
  | [] => result
  | current :: rest =>
    match graph.lookup current with
    | none => processQueue degrees rest (result ++ [current])
    | some node =>
      let state := node.dependedBy.foldl release (degrees, rest)
      processQueue state.1 (sorted state.2) (result ++ [current])
  termination_by work (degrees, queue)
  decreasing_by
  · exact Nat.lt_succ_self _
  · have same := work_releases node.dependedBy (degrees, rest)
    have length := (perm_sorted (node.dependedBy.foldl release (degrees, rest)).2).length_eq
    unfold work at same ⊢
    dsimp only at same ⊢
    rw [length, same, List.length_cons]
    exact Nat.lt_succ_self _

def installOrder : List String :=
  let degrees := graph.inDegrees names
  graph.processQueue degrees
    (sorted ((degrees.filter fun entry => decide (entry.2 = 0)).map Prod.fst)) []

def getInstallPlan : List String :=
  graph.installOrder (graph.getAllDependencies name ++ [name])

/-! ## What is counted -/

def demand : Nat :=
  ((graph.getDependencies name).filter fun dep => decide (dep ∈ names)).length

def supply (done : List String) (name : String) : Nat :=
  (done.filter fun current => decide (name ∈ graph.getDependents current)).length

variable {graph names}

theorem lookup_countDependencies (degrees : Dict String Int) (name other : String) :
    (graph.countDependencies names name degrees).lookup other =
      if other = name then (degrees.lookup other).map (· + (graph.demand names name : Int))
      else degrees.lookup other := by
  unfold countDependencies demand
  generalize graph.getDependencies name = deps
  induction deps generalizing degrees with
  | nil => simp
  | cons dep rest ih =>
    rw [List.foldl_cons, ih]
    by_cases inside : dep ∈ names
    · have longer : ((dep :: rest).filter fun dep => decide (dep ∈ names)).length =
          (rest.filter fun dep => decide (dep ∈ names)).length + 1 := by simp [inside]
      rw [if_pos inside, longer, Dict.lookup_update]
      split
      case isTrue =>
        rw [Option.map_map]
        congr 1
        funext degree
        simp only [Function.comp_apply]
        omega
      case isFalse => rfl
    · have same : ((dep :: rest).filter fun dep => decide (dep ∈ names)) =
          rest.filter fun dep => decide (dep ∈ names) := by simp [inside]
      rw [if_neg inside, same]

theorem lookup_zeros (entries : Dict String Int) (other : String) :
    (names.foldl (fun degrees name => Dict.set name 0 degrees) entries).lookup other =
      if other ∈ names then some 0 else entries.lookup other := by
  induction names generalizing entries with
  | nil => simp
  | cons name rest ih =>
    rw [List.foldl_cons, ih, Dict.lookup_set]
    by_cases same : other = name
    · simp [same]
    · simp [same]

theorem lookup_inDegrees (distinct : names.Nodup) (name : String) :
    (graph.inDegrees names).lookup name =
      if name ∈ names then some (graph.demand names name : Int) else none := by
  have counts : ∀ (listed : List String) (degrees : Dict String Int), listed.Nodup ->
      (listed.foldl (fun degrees name => graph.countDependencies names name degrees)
        degrees).lookup name =
      if name ∈ listed then (degrees.lookup name).map (· + (graph.demand names name : Int))
      else degrees.lookup name := by
    intro listed
    induction listed with
    | nil => simp
    | cons first rest ih =>
      intro degrees apart
      rcases List.nodup_cons.mp apart with ⟨new, distinct⟩
      rw [List.foldl_cons, ih _ distinct, lookup_countDependencies]
      by_cases same : name = first
      · subst same
        simp [new]
      · simp [same]
  unfold inDegrees
  rw [counts names _ distinct, lookup_zeros]
  split
  case isTrue => simp
  case isFalse => rfl

theorem releases_eq {dependents : List String} (distinct : dependents.Nodup)
    (state : Dict String Int × List String) :
    (∀ name, (dependents.foldl release state).1.lookup name =
      if name ∈ dependents then (state.1.lookup name).map (· - 1) else state.1.lookup name) ∧
    (dependents.foldl release state).2 =
      state.2 ++ dependents.filter fun name => decide (state.1.lookup name = some 1) := by
  induction dependents generalizing state with
  | nil => simp
  | cons dependent rest ih =>
    rcases List.nodup_cons.mp distinct with ⟨new, apart⟩
    rcases ih apart (release state dependent) with ⟨lookups, queue⟩
    have released : ∀ name, (release state dependent).1.lookup name =
        if name = dependent then (state.1.lookup name).map (· - 1) else state.1.lookup name := by
      intro name
      unfold release
      split
      case h_1 nothing =>
        split
        case isTrue same =>
          rw [same, nothing]
          rfl
        case isFalse => rfl
      case h_2 degree found =>
        dsimp only
        rw [Dict.lookup_set]
        split
        case isTrue same =>
          rw [same, found]
          rfl
        case isFalse => rfl
    have waits : (release state dependent).2 =
        state.2 ++ if state.1.lookup dependent = some 1 then [dependent] else [] := by
      unfold release
      split
      case h_1 nothing => simp [nothing]
      case h_2 degree found =>
        rw [found]
        dsimp only
        by_cases last : degree = 1
        · simp [last]
        · have more : Not (degree - 1 = 0) := by omega
          simp [last, more]
    rw [List.foldl_cons]
    refine ⟨fun name => ?_, ?_⟩
    · rw [lookups, released]
      by_cases same : name = dependent
      · subst same
        simp [new]
      · simp [same]
    · have others : (rest.filter fun name =>
          decide ((release state dependent).1.lookup name = some 1)) =
          rest.filter fun name => decide (state.1.lookup name = some 1) := by
        refine List.filter_congr fun name member => ?_
        have other : name ≠ dependent := by
          rintro rfl
          exact new member
        rw [released, if_neg other]
      rw [queue, others, waits, List.filter_cons, List.append_assoc]
      congr 1
      by_cases last : state.1.lookup dependent = some 1
      · simp [last]
      · simp [last]

def within (graph : DependencyGraph) (names : List String) (name : String) : List String :=
  (graph.getDependencies name).filter fun dep => decide (dep ∈ names)

theorem supply_le (wellFormed : graph.WellFormed) {done : List String} (distinct : done.Nodup)
    (inside : done ⊆ names) (name : String) : graph.supply done name ≤ graph.demand names name ∧
      (graph.demand names name = graph.supply done name ->
        (graph.within names name).Nodup ∧ ∀ dep ∈ graph.within names name,
          dep ∈ done ∧ graph.Listed dep name) := by
  have part : ((done.filter fun current => decide (name ∈ graph.getDependents current)).Subperm
      (graph.within names name)) := by
    refine (distinct.filter _).subperm fun current member => ?_
    rcases List.mem_filter.mp member with ⟨finished, lists⟩
    have listed := mem_getDependents.mp (of_decide_eq_true lists)
    refine List.mem_filter.mpr ⟨?_, decide_eq_true (inside finished)⟩
    exact mem_getDependencies.mpr (wellFormed.backed name current listed)
  refine ⟨part.length_le, fun same => ?_⟩
  have whole := part.perm_of_length_le (Nat.le_of_eq same)
  refine ⟨whole.nodup_iff.mp (distinct.filter _), fun dep member => ?_⟩
  rcases List.mem_filter.mp (whole.symm.subset member) with ⟨finished, lists⟩
  exact ⟨finished, mem_getDependents.mp (of_decide_eq_true lists)⟩

/-- Each name comes behind those of its dependencies that are among the names. -/
def InOrder (graph : DependencyGraph) (names order : List String) : Prop :=
  ∀ before name after, order = before ++ name :: after ->
    ∀ dep ∈ names, graph.Depends name dep -> dep ∈ before

structure Progress (graph : DependencyGraph) (names : List String) (degrees : Dict String Int)
    (queue result : List String) : Prop where
  lookup : ∀ name, degrees.lookup name =
    if name ∈ names then some ((graph.demand names name : Int) - graph.supply result name) else none
  distinct : (result ++ queue).Nodup
  freed : ∀ name, name ∈ result ++ queue <->
    name ∈ names ∧ graph.demand names name = graph.supply result name
  inOrder : graph.InOrder names result

theorem InOrder.append {order : List String} (inOrder : graph.InOrder names order) {name : String}
    (deps : ∀ dep ∈ names, graph.Depends name dep -> dep ∈ order) :
    graph.InOrder names (order ++ [name]) :=
  forall_split_append inOrder fun before entry after split dep member depends => by
    rcases List.singleton_eq_append_iff.mp split with ⟨rfl, same⟩ | ⟨rfl, same⟩
    · rw [(List.cons.inj same).1] at depends
      exact List.mem_append_left _ (deps dep member depends)
    · cases same

theorem supply_append (done : List String) (current name : String) :
    graph.supply (done ++ [current]) name =
      graph.supply done name + if name ∈ graph.getDependents current then 1 else 0 := by
  unfold supply
  rw [List.filter_append, List.length_append]
  by_cases lists : name ∈ graph.getDependents current <;> simp [lists]

theorem Progress.step (wellFormed : graph.WellFormed) {degrees : Dict String Int}
    {current : String} {rest result : List String}
    (progress : Progress graph names degrees (current :: rest) result)
    {state : Dict String Int × List String} {queue : List String} (waiting : queue.Perm state.2)
    (released : state = (graph.getDependents current).foldl release (degrees, rest)) :
    Progress graph names state.1 queue (result ++ [current]) := by
  have once : (graph.getDependents current).Nodup := by
    unfold getDependents
    cases found : graph.lookup current with
    | none => exact List.nodup_nil
    | some node => exact wellFormed.once current node found
  rcases releases_eq once (degrees, rest) with ⟨lookups, queued⟩
  rw [← released] at lookups queued
  dsimp only at lookups queued
  have distinct : ((result ++ [current]) ++ rest).Nodup := by
    rw [List.append_assoc]
    exact progress.distinct
  have inside : result ++ [current] ⊆ names := by
    intro name member
    refine ((progress.freed name).mp ?_).1
    rw [List.append_cons]
    exact List.mem_append_left _ member
  have bound := fun name =>
    (supply_le wellFormed (List.Nodup.of_append_left distinct) inside name).1
  have one : ∀ name, degrees.lookup name = some 1 <->
      name ∈ names ∧ graph.demand names name = graph.supply result name + 1 := by
    intro name
    rw [progress.lookup]
    split
    case isTrue member =>
      rw [Option.some.injEq]
      refine Iff.trans ?_ (and_iff_right member).symm
      omega
    case isFalse absent =>
      exact iff_of_false (fun impossible => nomatch impossible) fun both => absent both.1
  have waits : ∀ name, name ∈ queue <-> name ∈ rest ∨
      (name ∈ graph.getDependents current ∧ degrees.lookup name = some 1) := by
    intro name
    rw [waiting.mem_iff, queued, List.mem_append, List.mem_filter, decide_eq_true_eq]
  have earlier : ∀ name, name ∈ (result ++ [current]) ++ rest <->
      name ∈ names ∧ graph.demand names name = graph.supply result name := by
    intro name
    rw [List.append_assoc]
    exact progress.freed name
  have freed : ∀ name, name ∈ (result ++ [current]) ++ queue <->
      name ∈ names ∧ graph.demand names name = graph.supply (result ++ [current]) name := by
    intro name
    have low := bound name
    have old := earlier name
    rw [supply_append] at low ⊢
    rw [List.mem_append, waits, ← or_assoc, ← List.mem_append, old, one]
    by_cases lists : name ∈ graph.getDependents current
    · rw [if_pos lists] at low ⊢
      constructor
      · rintro (⟨_, same⟩ | ⟨_, member, last⟩)
        · omega
        · exact ⟨member, last⟩
      · exact fun both => .inr ⟨lists, both⟩
    · rw [if_neg lists]
      exact or_iff_left fun both => lists both.1
  refine ⟨?_, ?_, freed, ?_⟩
  · intro name
    rw [lookups, progress.lookup, supply_append]
    by_cases lists : name ∈ graph.getDependents current
    · rw [if_pos lists, if_pos lists]
      split
      case isTrue =>
        refine congrArg some ?_
        dsimp only
        omega
      case isFalse => rfl
    · rw [if_neg lists, if_neg lists]
      rfl
  · rw [(waiting.append_left _).nodup_iff, queued, ← List.append_assoc]
    refine distinct.append (once.filter _) fun name old new => ?_
    have late := (one name).mp (of_decide_eq_true (List.mem_filter.mp new).2)
    have early := (earlier name).mp old
    omega
  · refine progress.inOrder.append fun dep member depends => ?_
    have here := (progress.freed current).mp (List.mem_append_right _ List.mem_cons_self)
    have before : result ⊆ names := fun name done =>
      ((progress.freed name).mp (List.mem_append_left _ done)).1
    refine (((supply_le wellFormed (List.Nodup.of_append_left progress.distinct) before current).2
      here.2).2 dep ?_).1
    exact List.mem_filter.mpr ⟨mem_getDependencies.mpr depends, decide_eq_true member⟩

theorem processQueue_progress (wellFormed : graph.WellFormed) {degrees : Dict String Int}
    {queue result : List String} (progress : Progress graph names degrees queue result) :
    ∃ last, Progress graph names last [] (graph.processQueue degrees queue result) := by
  fun_induction processQueue with
  | case1 degrees result => exact ⟨degrees, progress⟩
  | case2 degrees result current rest nothing ih =>
    refine ih (@Progress.step _ _ wellFormed _ _ _ _ progress (degrees, rest) _
      (List.Perm.refl _) ?_)
    unfold getDependents
    rw [nothing]
    rfl
  | case3 degrees result current rest node found state ih =>
    refine ih (@Progress.step _ _ wellFormed _ _ _ _ progress state _ (perm_sorted _) ?_)
    unfold getDependents
    rw [found]

theorem nodup_inDegrees : (graph.inDegrees names).keys.Nodup := by
  have zeros : ∀ (listed : List String) (degrees : Dict String Int), degrees.keys.Nodup ->
      (listed.foldl (fun degrees name => Dict.set name 0 degrees) degrees).keys.Nodup := by
    intro listed
    induction listed with
    | nil => exact fun _ distinct => distinct
    | cons name rest ih => exact fun degrees distinct => ih _ (Dict.nodup_set distinct name 0)
  have counts : ∀ (deps : List String) (name : String) (degrees : Dict String Int),
      degrees.keys.Nodup -> (deps.foldl (fun degrees dep =>
        if dep ∈ names then Dict.update name (· + 1) degrees else degrees) degrees).keys.Nodup := by
    intro deps name
    induction deps with
    | nil => exact fun _ distinct => distinct
    | cons dep rest ih =>
      intro degrees distinct
      refine ih _ ?_
      dsimp only
      split
      · exact Dict.nodup_update distinct name (· + 1)
      · exact distinct
  have all : ∀ (listed : List String) (degrees : Dict String Int), degrees.keys.Nodup ->
      (listed.foldl (fun degrees name => graph.countDependencies names name degrees)
        degrees).keys.Nodup := by
    intro listed
    induction listed with
    | nil => exact fun _ distinct => distinct
    | cons name rest ih => exact fun degrees distinct => ih _ (counts _ name degrees distinct)
  exact all names _ (zeros names [] List.nodup_nil)

theorem progress_start (distinct : names.Nodup) : Progress graph names (graph.inDegrees names)
      (sorted (((graph.inDegrees names).filter fun entry => decide (entry.2 = 0)).map Prod.fst)) [] := by
  have none_ : ∀ name, graph.supply [] name = 0 := fun _ => rfl
  have keys :
      (((graph.inDegrees names).filter fun entry => decide (entry.2 = 0)).map Prod.fst).Nodup :=
    (List.filter_sublist.map Prod.fst).nodup nodup_inDegrees
  have zero : ∀ name,
      name ∈ ((graph.inDegrees names).filter fun entry => decide (entry.2 = 0)).map Prod.fst <->
        (graph.inDegrees names).lookup name = some 0 := by
    intro name
    constructor
    · intro member
      rcases List.mem_map.mp member with ⟨⟨key, degree⟩, kept, rfl⟩
      rcases List.mem_filter.mp kept with ⟨entry, zero⟩
      have same : degree = 0 := of_decide_eq_true zero
      rw [Dict.lookup_of_mem nodup_inDegrees entry, same]
    · intro found
      refine List.mem_map.mpr ⟨(name, 0), List.mem_filter.mpr ⟨Dict.mem_of_lookup found, ?_⟩, rfl⟩
      exact decide_eq_true rfl
  refine ⟨fun name => ?_, ?_, fun name => ?_, ?_⟩
  · rw [lookup_inDegrees distinct, none_]
    simp
  · exact (perm_sorted _).nodup_iff.mpr keys
  · rw [List.nil_append, (perm_sorted _).mem_iff, zero, lookup_inDegrees distinct, none_]
    split
    case isTrue member => simp [member]
    case isFalse absent => simp [absent]
  · intro before name after split
    exact absurd split.symm (by simp)

def Agreeing (graph : DependencyGraph) (names : List String) : Prop :=
  ∀ name ∈ names, (graph.within names name).Nodup ∧
    ∀ dep ∈ graph.within names name, graph.Listed dep name

theorem installOrder_perm_iff (wellFormed : graph.WellFormed) (acyclic : Acyclic graph.Edge)
    (distinct : names.Nodup) : graph.InOrder names (graph.installOrder names) ∧
      ((graph.installOrder names).Perm names <-> graph.Agreeing names) := by
  rcases processQueue_progress wellFormed (@progress_start graph names distinct) with ⟨last, progress⟩
  change Progress graph names last [] (graph.installOrder names) at progress
  refine ⟨progress.inOrder, ?_⟩
  have apart : (graph.installOrder names).Nodup := List.Nodup.of_append_left progress.distinct
  have freed : ∀ name, name ∈ graph.installOrder names <->
      name ∈ names ∧ graph.demand names name = graph.supply (graph.installOrder names) name := by
    intro name
    rw [← progress.freed name, List.append_nil]
  have inside : graph.installOrder names ⊆ names := fun name member => ((freed name).mp member).1
  constructor
  · intro all name member
    have both := (supply_le wellFormed apart inside name).2
      ((freed name).mp (all.mem_iff.mpr member)).2
    exact ⟨both.1, fun dep within => (both.2 dep within).2⟩
  · intro agreeing
    refine (List.perm_ext_iff_of_nodup apart distinct).mpr fun name => ?_
    refine ⟨fun member => inside member, fun member => ?_⟩
    by_contra left
    -- From a name left over, dependencies left over lead on and on.
    have goesOn : ∀ name ∈ names.toFinset \ (graph.installOrder names).toFinset,
        ∃ next ∈ names.toFinset \ (graph.installOrder names).toFinset,
          graph.Depends name next := by
      intro name rest
      rw [Finset.mem_sdiff, List.mem_toFinset, List.mem_toFinset] at rest
      by_contra none_
      have done : graph.within names name ⊆ (graph.installOrder names).filter fun current =>
          decide (name ∈ graph.getDependents current) := by
        intro dep member
        rcases agreeing name rest.1 with ⟨_, listed⟩
        rcases List.mem_filter.mp member with ⟨depends, among⟩
        refine List.mem_filter.mpr
          ⟨?_, decide_eq_true (mem_getDependents.mpr (listed dep member))⟩
        by_contra later
        refine none_ ⟨dep, ?_, mem_getDependencies.mp depends⟩
        rw [Finset.mem_sdiff, List.mem_toFinset, List.mem_toFinset]
        exact ⟨of_decide_eq_true among, later⟩
      have enough := ((agreeing name rest.1).1.subperm done).length_le
      refine rest.2 ((freed name).mpr ⟨rest.1, Nat.le_antisymm enough ?_⟩)
      exact (supply_le wellFormed apart inside name).1
    rcases @exists_cycle _ graph.Depends _ goesOn name (by simp [member, left]) with ⟨node, _, cycle⟩
    rcases TransGen.head'_iff.mp cycle with ⟨next, step, _⟩
    exact acyclic node (transGen_edge cycle step.present)

end DependencyGraph
end Tools
end BreadMind
