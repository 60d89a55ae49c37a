import BreadMind.Execution.Graphs
import BreadMind.Flow.Dag

namespace BreadMind
namespace Flow

open Execution Relation
open Function (update update_of_ne update_self)

/-!
# What validation decides

A DAG passes exactly when its identifiers are distinct, its dependencies are
steps of it and no step depends on itself through others, unless the search for
cycles runs out of interpreter frames.  It does where it goes down through more
steps than there are frames, which is a property of the dependencies and of the
order in which they are listed.
-/

namespace DAG

/-! ## Well-formed DAGs -/

def Depends (dag : DAG) (sid dep : StepId) : Prop :=
  ∃ s ∈ dag.steps, s.id = sid ∧ dep ∈ s.dependsOn

def Closed (dag : DAG) : Prop :=
  ∀ s ∈ dag.steps, ∀ dep ∈ s.dependsOn, dep ∈ dag.ids

structure WellFormed (dag : DAG) : Prop where
  distinct : dag.ids.Nodup
  closed : dag.Closed
  acyclic : Acyclic dag.Depends

def dependencies (dag : DAG) (node : StepId) : List StepId :=
  ((dag.byId node).map Step.dependsOn).getD []

/-- The search for cycles goes down through more than so many steps. -/
def Overflows (dag : DAG) (frames : Nat) : Prop :=
  dag.ids.Nodup ∧ dag.Closed ∧
    Sinks dag.dependencies (Descends dag.dependencies frames []) [] [] dag.ids

variable {dag : DAG}

theorem acyclic_iff_rank (dag : DAG) : Acyclic dag.Depends <-> ∃ rank : StepId -> Nat,
      ∀ s ∈ dag.steps, ∀ dep ∈ s.dependsOn, rank dep < rank s.id := by
  refine (Execution.acyclic_iff_rank (dag.steps.flatMap Step.dependsOn).toFinset ?_).trans ?_
  · rintro source target ⟨s, member, _, depends⟩
    exact List.mem_toFinset.mpr (List.mem_flatMap.mpr ⟨s, member, depends⟩)
  refine exists_congr fun rank => ⟨?_, ?_⟩
  · exact fun descends s member dep depends => descends s.id dep ⟨s, member, rfl, depends⟩
  · rintro descends source target ⟨s, member, rfl, depends⟩
    exact descends s member target depends

variable {node : StepId} {step : Step}

theorem byId_mem (found : dag.byId node = some step) : step ∈ dag.steps ∧ step.id = node := by
  have member := List.mem_of_find?_eq_some found
  have same := List.find?_some found
  exact ⟨List.mem_reverse.mp member, of_decide_eq_true same⟩

theorem exists_byId (member : node ∈ dag.ids) : ∃ step, dag.byId node = some step := by
  rcases List.mem_map.mp member with ⟨step, inSteps, same⟩
  refine Option.isSome_iff_exists.mp (List.find?_isSome.mpr ⟨step, ?_⟩)
  exact ⟨List.mem_reverse.mpr inSteps, decide_eq_true same⟩

theorem byId_of_mem (distinct : dag.ids.Nodup) (member : step ∈ dag.steps) :
    dag.byId step.id = some step := by
  rcases exists_byId (List.mem_map_of_mem member : step.id ∈ dag.ids) with ⟨found, byId⟩
  rcases byId_mem byId with ⟨inSteps, same⟩
  rw [byId, List.inj_on_of_nodup_map distinct inSteps member same]

theorem dependencies_of_byId (found : dag.byId node = some step) :
    dag.dependencies node = step.dependsOn := by
  unfold dependencies
  rw [found]
  rfl

theorem depends_iff_lists (distinct : dag.ids.Nodup) : dag.Depends = Lists dag.dependencies := by
  funext sid dep
  refine propext ⟨?_, ?_⟩
  · rintro ⟨s, member, rfl, depends⟩
    unfold Execution.Lists
    rw [dependencies_of_byId (byId_of_mem distinct member)]
    exact depends
  · intro lists
    cases found : dag.byId sid with
    | none =>
      unfold Execution.Lists dependencies at lists
      rw [found] at lists
      cases lists
    | some step =>
      unfold Execution.Lists at lists
      rw [dependencies_of_byId found] at lists
      exact ⟨step, (byId_mem found).1, (byId_mem found).2, lists⟩

theorem dependencies_closed (closed : dag.Closed) {dep : StepId}
    (lists : dep ∈ dag.dependencies node) : dep ∈ dag.ids := by
  cases found : dag.byId node with
  | none =>
    unfold dependencies at lists
    rw [found] at lists
    cases lists
  | some step =>
    rw [dependencies_of_byId found] at lists
    exact closed step (byId_mem found).1 dep lists

/-! ## The colours during a search -/

/-- Gray is the path from the start of the search, and black is what the nodes
which are done with lead to. -/
structure Painted (dag : DAG) (path explored : List StepId) (color : StepId -> Option Color) :
    Prop where
  listed : ∀ sid ∈ dag.ids, color sid ≠ none
  gray : ∀ sid, color sid = some .gray <-> sid ∈ path
  black : ∀ sid, color sid = some .black <-> Reached (Lists dag.dependencies) explored sid

inductive Searched (dag : DAG) (path explored nodes : List StepId) (deep : Prop) :
    Except PyError (StepId -> Option Color) -> Prop where
  | overflowed {message : String} (tooDeep : deep) :
      Searched dag path explored nodes deep (.error (.recursionError message))
  | cyclic {message : String} (shallow : Not deep)
      (meets : Not (Clear (Lists dag.dependencies) (explored ++ nodes) path)) :
      Searched dag path explored nodes deep (.error (.dagValidationError message))
  | painted {color : StepId -> Option Color} (shallow : Not deep)
      (clear : Clear (Lists dag.dependencies) (explored ++ nodes) path)
      (paints : Painted dag path (explored ++ nodes) color) :
      Searched dag path explored nodes deep (.ok color)

section Searching

variable {path explored : List StepId} {color : StepId -> Option Color} {node : StepId}

theorem Painted.enter (painted : Painted dag path explored color)
    (white : color node = some .white) :
    Painted dag (node :: path) explored (update color node (some .gray)) where
  listed := by
    intro sid member
    by_cases same : sid = node
    · rw [same, update_self]
      exact Option.some_ne_none _
    · rw [update_of_ne same]
      exact painted.listed sid member
  gray := by
    intro sid
    by_cases same : sid = node
    · rw [same, update_self]
      exact iff_of_true rfl List.mem_cons_self
    · rw [update_of_ne same, painted.gray, List.mem_cons]
      exact (or_iff_right same).symm
  black := by
    intro sid
    by_cases same : sid = node
    · rw [same, update_self]
      refine iff_of_false (fun impossible => by cases impossible) fun reached => ?_
      rw [(painted.black node).mpr reached] at white
      cases white
    · rw [update_of_ne same]
      exact painted.black sid

theorem reached_node {sid : StepId} : Reached (Lists dag.dependencies) [node] sid <->
      sid = node ∨ Reached (Lists dag.dependencies) (dag.dependencies node) sid := by
  rw [reached_singleton, ReflTransGen.cases_head_iff]
  exact or_congr eq_comm Iff.rfl

theorem Painted.leave (painted : Painted dag (node :: path) (explored ++ dag.dependencies node) color)
    (off : node ∉ path) :
    Painted dag path (explored ++ [node]) (update color node (some .black)) where
  listed := by
    intro sid member
    by_cases same : sid = node
    · rw [same, update_self]
      exact Option.some_ne_none _
    · rw [update_of_ne same]
      exact painted.listed sid member
  gray := by
    intro sid
    by_cases same : sid = node
    · rw [same, update_self]
      exact iff_of_false (fun impossible => by cases impossible) off
    · rw [update_of_ne same, painted.gray, List.mem_cons]
      exact or_iff_right same
  black := by
    intro sid
    rw [reached_append, reached_node]
    by_cases same : sid = node
    · rw [same, update_self]
      exact iff_of_true rfl (.inr (.inl rfl))
    · rw [update_of_ne same, painted.black, reached_append, or_iff_right same]

theorem reached_again {sid : StepId} (again : Reached (Lists dag.dependencies) explored node) :
    Reached (Lists dag.dependencies) (explored ++ [node]) sid <->
      Reached (Lists dag.dependencies) explored sid := by
  rw [reached_append, reached_singleton]
  exact or_iff_left_of_imp again.trans

theorem clear_node (off : node ∉ path) :
    Clear (Lists dag.dependencies) (dag.dependencies node) (node :: path) <->
      Clear (Lists dag.dependencies) [node] path := by
  constructor
  · intro clear sid reached
    rcases reached_node.mp reached with rfl | below
    · refine ⟨off, fun cycle => ?_⟩
      rcases TransGen.head'_iff.mp cycle with ⟨dep, lists, leads⟩
      exact (clear sid ⟨dep, lists, leads⟩).1 List.mem_cons_self
    · exact ⟨fun member => (clear sid below).1 (List.mem_cons_of_mem _ member), (clear sid below).2⟩
  · rintro clear sid ⟨dep, lists, leads⟩
    have below := clear sid (reached_node.mpr (.inr ⟨dep, lists, leads⟩))
    refine ⟨fun member => ?_, below.2⟩
    rcases List.mem_cons.mp member with rfl | onPath
    · exact below.2 (TransGen.head' lists leads)
    · exact below.1 onPath

theorem Searched.congr {nodes others : List StepId} {deep tooDeep : Prop} {before : List StepId}
    {outcome : Except PyError (StepId -> Option Color)}
    (searched : Searched dag path before others deep outcome) (same : deep <-> tooDeep)
    (split : before ++ others = explored ++ nodes) :
    Searched dag path explored nodes tooDeep outcome := by
  cases searched with
  | overflowed isDeep => exact .overflowed (same.mp isDeep)
  | cyclic shallow meets => exact .cyclic (fun isDeep => shallow (same.mpr isDeep)) (split ▸ meets)
  | painted shallow clear paints =>
    exact .painted (fun isDeep => shallow (same.mpr isDeep)) (split ▸ clear) (split ▸ paints)

theorem searched_foldlM {round : (StepId -> Option Color) -> StepId ->
      Except PyError (StepId -> Option Color)} {tooFar : List StepId -> StepId -> Prop}
    (rounds : ∀ explored color node, Painted dag path explored color ->
      Clear (Lists dag.dependencies) explored path -> node ∈ dag.ids ->
      Searched dag path explored [node] (node ∉ path ∧
        Not (Reached (Lists dag.dependencies) explored node) ∧ tooFar explored node)
        (round color node)) (nodes : List StepId) (listed : ∀ node ∈ nodes, node ∈ dag.ids)
    (painted : Painted dag path explored color)
    (clear : Clear (Lists dag.dependencies) explored path) :
    Searched dag path explored nodes (Sinks dag.dependencies tooFar explored path nodes)
      (nodes.foldlM round color) := by
  induction nodes generalizing explored color with
  | nil =>
    refine .painted not_sinks_nil ?_ ?_
    · rw [List.append_nil]
      exact clear
    · rw [List.append_nil]
      exact painted
  | cons node rest ih =>
    have first := rounds explored color node painted clear (listed node List.mem_cons_self)
    rw [List.foldlM_cons]
    generalize round color node = outcome at first
    cases first with
    | overflowed deep => exact .overflowed ((sinks_cons clear).mpr (.inl deep))
    | cyclic shallow meets =>
      refine .cyclic (fun sinks => ?_) fun ahead => ?_
      · rcases (sinks_cons clear).mp sinks with deep | ⟨itself, _⟩
        · exact shallow deep
        · exact meets (clear_append.mpr ⟨clear, itself⟩)
      · rw [List.append_cons] at ahead
        exact meets (clear_append.mp ahead).1
    | painted shallow ahead paints =>
      refine (ih (fun other member => listed other (List.mem_cons_of_mem _ member))
        paints ahead).congr ?_ (List.append_cons _ _ _).symm
      rw [sinks_cons clear, or_iff_right shallow]
      exact (and_iff_right (clear_append.mp ahead).2).symm

theorem searched_black (painted : Painted dag path explored color)
    (clear : Clear (Lists dag.dependencies) explored path) {deep : Prop}
    (black : color node = some .black) : Searched dag path explored [node] (node ∉ path ∧
      Not (Reached (Lists dag.dependencies) explored node) ∧ deep) (.ok color) := by
  have again := (painted.black node).mp black
  refine .painted (fun fresh => fresh.2.1 again) ?_ ?_
  · exact fun sid reached => clear sid ((reached_again again).mp reached)
  · exact ⟨painted.listed, painted.gray, fun sid =>
      (painted.black sid).trans (reached_again again).symm⟩

def visitDependency (dag : DAG) (frames : Nat) (color : StepId -> Option Color) (dep : StepId) :
    Except PyError (StepId -> Option Color) :=
  match color dep with
  | none => .error (.keyError dep)
  | some .gray => .error (.dagValidationError ("cycle detected at step '" ++ dep ++ "'"))
  | some .white => visit dag frames dep color
  | some .black => .ok color

theorem visit_of_byId {step : Step} (found : dag.byId node = some step) (frames : Nat)
    (color : StepId -> Option Color) : visit dag (frames + 1) node color =
      ((dag.dependencies node).foldlM (visitDependency dag frames)
        (update color node (some .gray)) >>= fun color =>
          .ok (update color node (some .black))) := by
  unfold visit
  rw [found, dependencies_of_byId found]
  rfl

theorem Painted.fresh (painted : Painted dag path explored color)
    (white : color node = some .white) :
    node ∉ path ∧ Not (Reached (Lists dag.dependencies) explored node) := by
  constructor
  · intro member
    rw [(painted.gray node).mpr member] at white
    cases white
  · intro reached
    rw [(painted.black node).mpr reached] at white
    cases white

/-- The search below a white node, by induction on the frames that are left. -/
theorem searched_visit (closed : dag.Closed) (frames : Nat)
    (painted : Painted dag path explored color)
    (clear : Clear (Lists dag.dependencies) explored path) (listed : node ∈ dag.ids)
    (white : color node = some .white) :
    Searched dag path explored [node] (Descends dag.dependencies frames path explored node)
      (visit dag frames node color) := by
  induction frames generalizing path explored color node with
  | zero => exact .overflowed trivial
  | succ frames ih =>
    rcases exists_byId listed with ⟨step, found⟩
    rcases painted.fresh white with ⟨off, new⟩
    have clearOf : Clear (Lists dag.dependencies) explored (node :: path) := by
      intro sid reached
      refine ⟨fun member => ?_, (clear sid reached).2⟩
      rcases List.mem_cons.mp member with rfl | onPath
      · exact new reached
      · exact (clear sid reached).1 onPath
    have inner : Searched dag (node :: path) explored (dag.dependencies node)
        (Descends dag.dependencies (frames + 1) path explored node)
        ((dag.dependencies node).foldlM (visitDependency dag frames)
          (update color node (some .gray))) := by
      refine searched_foldlM ?_ _ (fun dep lists => dependencies_closed closed lists)
        (painted.enter white) clearOf
      intro earlier shade dep paints ahead depListed
      unfold visitDependency
      split
      case h_1 unknown => exact (paints.listed dep depListed unknown).elim
      case h_2 gray =>
        have onPath := (paints.gray dep).mp gray
        refine .cyclic (fun fresh => fresh.1 onPath) fun further => ?_
        exact (further dep (reached_append.mpr (.inr (reached_singleton.mpr .refl)))).1 onPath
      case h_3 isWhite =>
        refine (ih paints ahead depListed isWhite).congr ?_ rfl
        have fresh := paints.fresh isWhite
        exact ⟨fun deep => ⟨fresh.1, fresh.2, deep⟩, fun either => either.2.2⟩
      case h_4 black => exact searched_black paints ahead black
    rw [visit_of_byId found]
    generalize (dag.dependencies node).foldlM (visitDependency dag frames) _ = outcome at inner ⊢
    cases inner with
    | overflowed deep => exact .overflowed deep
    | cyclic shallow meets =>
      refine .cyclic shallow fun ahead => meets (clear_append.mpr ⟨clearOf, ?_⟩)
      exact (clear_node off).mpr (clear_append.mp ahead).2
    | painted shallow ahead paints =>
      refine .painted shallow (clear_append.mpr ⟨clear, ?_⟩) (paints.leave off)
      exact (clear_node off).mp (clear_append.mp ahead).2

def unvisited (dag : DAG) (node : StepId) : Option Color :=
  if node ∈ dag.ids then some .white else none

def startSearch (dag : DAG) (frames : Nat) (color : StepId -> Option Color) (sid : StepId) :
    Except PyError (StepId -> Option Color) :=
  if color sid = some .white then visit dag frames sid color else .ok color

theorem searchCycles_eq (dag : DAG) (frames : Nat) :
    dag.searchCycles frames = dag.ids.foldlM (startSearch dag frames) dag.unvisited := by
  change _ = (dag.steps.map Step.id).foldlM _ _
  rw [List.foldlM_map]
  rfl

theorem unvisited_of_mem (listed : node ∈ dag.ids) : dag.unvisited node = some .white :=
  if_pos listed

theorem unvisited_ne {shade : Color} (other : shade ≠ .white) :
    dag.unvisited node ≠ some shade := by
  unfold unvisited
  split
  · exact fun same => other (Option.some.inj same).symm
  · exact (Option.some_ne_none shade).symm

theorem painted_start (dag : DAG) : Painted dag [] [] dag.unvisited where
  listed := by
    intro sid member
    rw [unvisited_of_mem member]
    exact Option.some_ne_none _
  gray := fun sid => iff_of_false (unvisited_ne (by decide)) List.not_mem_nil
  black := by
    refine fun sid => iff_of_false (unvisited_ne (by decide)) ?_
    rintro ⟨start, impossible, _⟩
    cases impossible

theorem searched_searchCycles (closed : dag.Closed) (frames : Nat) : Searched dag [] [] dag.ids
      (Sinks dag.dependencies (Descends dag.dependencies frames []) [] [] dag.ids)
      (dag.searchCycles frames) := by
  rw [searchCycles_eq]
  refine searched_foldlM ?_ dag.ids (fun _ member => member) (painted_start dag) (clear_nil [])
  intro explored color node paints clear listed
  unfold startSearch
  split
  case isTrue white =>
    have fresh := paints.fresh white
    refine (searched_visit closed frames paints clear listed white).congr ?_ rfl
    exact ⟨fun deep => ⟨fresh.1, fresh.2, deep⟩, fun either => either.2.2⟩
  case isFalse other =>
    refine searched_black paints clear ?_
    cases shade : color node with
    | none => exact (paints.listed node listed shade).elim
    | some found =>
      cases found with
      | white => exact (other shade).elim
      | gray => exact (List.not_mem_nil ((paints.gray node).mp shade)).elim
      | black => rfl

end Searching

theorem clear_ids (distinct : dag.ids.Nodup) :
    Clear (Lists dag.dependencies) ([] ++ dag.ids) [] <-> Acyclic dag.Depends := by
  rw [depends_iff_lists distinct]
  constructor
  · intro clear node cycle
    have listed : node ∈ dag.ids := by
      rcases TransGen.head'_iff.mp cycle with ⟨dep, lists, _⟩
      rw [← depends_iff_lists distinct] at lists
      rcases lists with ⟨s, member, rfl, _⟩
      exact List.mem_map_of_mem member
    exact (clear node ⟨node, listed, .refl⟩).2 cycle
  · exact fun acyclic node _ => ⟨List.not_mem_nil, acyclic node⟩

/-! ## The three loops together -/

/-- How `validate` ends. -/
inductive Verdict (dag : DAG) (frames : Nat) : Except PyError PUnit -> Prop where
  | overflowed {message : String} (deep : dag.Overflows frames) :
      Verdict dag frames (.error (.recursionError message))
  | refused {message : String} (shallow : Not (dag.Overflows frames))
      (ill : Not dag.WellFormed) : Verdict dag frames (.error (.dagValidationError message))
  | passed (shallow : Not (dag.Overflows frames)) (well : dag.WellFormed) :
      Verdict dag frames (.ok ⟨⟩)

variable {steps : List Step} {seen : Finset StepId}

theorem collectIds_error {failure : PyError} (raised : collectIds steps seen = .error failure) :
    (∃ message, failure = .dagValidationError message) ∧
      Not ((steps.map Step.id).Nodup ∧ ∀ s ∈ steps, s.id ∉ seen) := by
  induction steps generalizing seen with
  | nil => cases raised
  | cons head tail ih =>
    unfold collectIds at raised
    split at raised
    case isTrue repeated =>
      cases raised
      exact ⟨⟨_, rfl⟩, fun fresh => fresh.2 head List.mem_cons_self repeated⟩
    case isFalse =>
      rcases ih raised with ⟨kind, clash⟩
      refine ⟨kind, fun fresh => clash ⟨(List.nodup_cons.mp fresh.1).2, ?_⟩⟩
      intro s member known
      rcases Finset.mem_insert.mp known with same | old
      · exact (List.nodup_cons.mp fresh.1).1 (List.mem_map.mpr ⟨s, member, same⟩)
      · exact fresh.2 s (List.mem_cons_of_mem _ member) old

theorem checkDependencies_error {failure : PyError}
    (raised : checkDependencies seen steps = .error failure) :
    (∃ message, failure = .dagValidationError message) ∧
      ∃ s ∈ steps, ∃ dep ∈ s.dependsOn, dep ∉ seen := by
  rcases forM_eq_error raised with ⟨s, member, inStep⟩
  rcases forM_eq_error inStep with ⟨dep, depends, atDep⟩
  split at atDep
  · cases atDep
  case isFalse missing =>
    cases atDep
    exact ⟨⟨_, rfl⟩, s, member, dep, depends, missing⟩

theorem checkDependencies_ok (passed : checkDependencies seen steps = .ok ⟨⟩) :
    ∀ s ∈ steps, ∀ dep ∈ s.dependsOn, dep ∈ seen := by
  intro s member dep depends
  have atDep := (forM_eq_ok _ _).mp ((forM_eq_ok _ _).mp passed s member) dep depends
  split at atDep
  case isTrue known => exact known
  case isFalse => cases atDep

theorem verdict (dag : DAG) (frames : Nat) : Verdict dag frames (dag.validate frames) := by
  unfold validate
  cases collected : collectIds dag.steps ∅ with
  | error failure =>
    rcases collectIds_error collected with ⟨⟨message, rfl⟩, clash⟩
    have repeated : Not dag.ids.Nodup :=
      fun distinct => clash ⟨distinct, fun _ _ => Finset.notMem_empty _⟩
    exact .refused (fun deep => repeated deep.1) (fun well => repeated well.distinct)
  | ok seen =>
    rcases collectIds_ok collected with ⟨distinct, _, members⟩
    have known : ∀ sid, sid ∈ seen <-> sid ∈ dag.ids := by
      intro sid
      rw [members sid]
      exact or_iff_right (Finset.notMem_empty sid)
    cases checked : checkDependencies seen dag.steps with
    | error failure =>
      rcases checkDependencies_error checked with
        ⟨⟨message, rfl⟩, s, member, dep, depends, missing⟩
      have dangling : Not dag.Closed :=
        fun closed => missing ((known dep).mpr (closed s member dep depends))
      change Verdict dag frames (checkDependencies seen dag.steps >>= _)
      rw [checked]
      exact .refused (fun deep => dangling deep.2.1) (fun well => dangling well.closed)
    | ok _ =>
      have closed : dag.Closed := fun s member dep depends =>
        (known dep).mp (checkDependencies_ok checked s member dep depends)
      have searched := searched_searchCycles closed frames
      change Verdict dag frames (checkDependencies seen dag.steps >>= _)
      rw [checked]
      change Verdict dag frames (dag.searchCycles frames >>= _)
      generalize dag.searchCycles frames = outcome at searched ⊢
      cases searched with
      | overflowed deep => exact .overflowed ⟨distinct, closed, deep⟩
      | cyclic shallow meets =>
        refine .refused (fun deep => shallow deep.2.2) fun well => ?_
        exact meets ((clear_ids distinct).mpr well.acyclic)
      | painted shallow clear _ =>
        refine .passed (fun deep => shallow deep.2.2) ⟨distinct, closed, ?_⟩
        exact (clear_ids distinct).mp clear

theorem wellFormed_of_validate {frames : Nat} (passes : dag.validate frames = .ok ⟨⟩) :
    dag.WellFormed := by
  have outcome := verdict dag frames
  rw [passes] at outcome
  cases outcome with
  | passed _ well => exact well

theorem wellFormed_of_validated {frames : Nat} {valid : ValidDAG}
    (passes : dag.validated frames = .ok valid) : dag.WellFormed := by
  unfold validated at passes
  split at passes
  case h_1 checked => exact wellFormed_of_validate checked
  case h_2 => cases passes

/-- A DAG is passed exactly when it is well formed, and refused as invalid
otherwise, exactly when the search for cycles does not run out of frames. -/
theorem validate_exactly (dag : DAG) (frames : Nat) :
    (Acyclic dag.Depends <-> ∃ rank : StepId -> Nat,
      ∀ s ∈ dag.steps, ∀ dep ∈ s.dependsOn, rank dep < rank s.id) ∧
    (((dag.validate frames = .ok ⟨⟩ <-> dag.WellFormed) ∧
      ∀ failure, dag.validate frames = .error failure ->
        ∃ message, failure = .dagValidationError message) <-> Not (dag.Overflows frames)) := by
  refine ⟨acyclic_iff_rank dag, ?_⟩
  have outcome := verdict dag frames
  generalize dag.validate frames = result at outcome ⊢
  cases outcome with
  | overflowed deep =>
    refine iff_of_false (fun exact_ => ?_) (fun shallow => shallow deep)
    rcases exact_.2 _ rfl with ⟨message, impossible⟩
    cases impossible
  | refused shallow ill =>
    refine iff_of_true ⟨iff_of_false (fun impossible => by cases impossible) ill, ?_⟩ shallow
    rintro failure ⟨⟩
    exact ⟨_, rfl⟩
  | passed shallow well =>
    refine iff_of_true ⟨iff_of_true rfl well, ?_⟩ shallow
    rintro failure ⟨⟩

def chainedId (place : Nat) : StepId := String.ofList (List.replicate (place + 1) 's')

variable (length : Nat)

def chainedStep (place : Nat) : Step where
  id := chainedId place
  title := ""
  tool := .null
  args := .obj []
  dependsOn := if place + 1 < length then [chainedId (place + 1)] else []

def chain : DAG where
  steps := (List.range length).map (chainedStep length)

theorem chainedId_injective {first second : Nat} (same : chainedId first = chainedId second) :
    first = second := by
  have lengths := congrArg List.length (String.ofList_injective same)
  rw [List.length_replicate, List.length_replicate] at lengths
  exact Nat.succ.inj lengths

theorem chain_ids : (chain length).ids = (List.range length).map chainedId := by
  unfold ids chain
  rw [List.map_map]
  rfl

theorem chain_distinct : (chain length).ids.Nodup := by
  rw [chain_ids]
  exact List.nodup_range.map fun _ _ => chainedId_injective

theorem chain_closed : (chain length).Closed := by
  intro s member dep depends
  rcases List.mem_map.mp member with ⟨place, _, rfl⟩
  unfold chainedStep at depends
  dsimp only at depends
  split at depends
  case isTrue inside =>
    rw [List.mem_singleton.mp depends, chain_ids]
    exact List.mem_map_of_mem (List.mem_range.mpr inside)
  case isFalse => cases depends

theorem chain_dependencies {length place : Nat} (inside : place + 1 < length) :
    (chain length).dependencies (chainedId place) = [chainedId (place + 1)] := by
  have member : chainedStep length place ∈ (chain length).steps :=
    List.mem_map_of_mem (List.mem_range.mpr (Nat.lt_of_succ_lt inside))
  refine (dependencies_of_byId (byId_of_mem (chain_distinct length) member)).trans ?_
  exact if_pos inside

theorem chain_descends {length : Nat} (depth : Nat) {place : Nat} (inside : place + depth < length)
    {path : List StepId} (passed : ∀ sid ∈ path, ∃ earlier,
      earlier < place ∧ sid = chainedId earlier) :
    Descends (chain length).dependencies depth path [] (chainedId place) := by
  induction depth generalizing place path with
  | zero => trivial
  | succ depth ih =>
    have further : ∀ sid ∈ chainedId place :: path, ∃ earlier,
        earlier < place + 1 ∧ sid = chainedId earlier := by
      intro sid member
      rcases List.mem_cons.mp member with rfl | onPath
      · exact ⟨place, Nat.lt_succ_self place, rfl⟩
      · rcases passed sid onPath with ⟨earlier, before, same⟩
        exact ⟨earlier, Nat.lt_succ_of_lt before, same⟩
    refine ⟨[], chainedId (place + 1), [], chain_dependencies (by omega), clear_nil _, ?_, ?_, ?_⟩
    · intro member
      rcases further _ member with ⟨earlier, before, same⟩
      exact absurd (chainedId_injective same) (by omega)
    · rintro ⟨start, impossible, _⟩
      cases impossible
    · exact ih (by omega) further

theorem chain_overflows (frames : Nat) : (chain (frames + 1)).Overflows frames := by
  refine ⟨chain_distinct _, chain_closed _, [], chainedId 0,
    ((List.range frames).map Nat.succ).map chainedId, ?_, clear_nil _, List.not_mem_nil, ?_, ?_⟩
  · rw [chain_ids, List.range_succ_eq_map]
    rfl
  · rintro ⟨start, impossible, _⟩
    cases impossible
  · exact chain_descends frames (by omega) fun sid impossible => by cases impossible

/-- With a thousand frames left, a thousand and one steps in a chain are too many. -/
theorem chain_not_validated :
    Not (∀ (dag : DAG) (frames : Nat), (dag.validate frames = .ok ⟨⟩ <-> dag.WellFormed) ∧
      ∀ failure, dag.validate frames = .error failure ->
        ∃ message, failure = .dagValidationError message) := by
  intro claim
  have outcome := verdict (chain 1001) 1000
  have decided := claim (chain 1001) 1000
  generalize (chain 1001).validate 1000 = result at outcome decided
  cases outcome with
  | overflowed deep =>
    rcases decided.2 _ rfl with ⟨message, impossible⟩
    cases impossible
  | refused shallow _ => exact shallow (chain_overflows 1000)
  | passed shallow _ => exact shallow (chain_overflows 1000)

end DAG

end Flow
end BreadMind
