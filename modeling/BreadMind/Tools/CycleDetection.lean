import Mathlib.Data.List.Chain
import BreadMind.Tools.RemovalPlan

namespace BreadMind
namespace Tools
namespace DependencyGraph

open Execution Relation

/-!
# The search for cycles

A node is gray while it is searched.  An edge to a gray node closes a cycle,
which is read off the parents of the nodes on the way back to it.
-/

inductive Color where
  | white
  | gray
  | black
  deriving DecidableEq

structure CycleSearch where
  color : String -> Color := fun _ => .white
  parent : String -> Option String := fun _ => none
  cycles : List (List String) := []

/-- The names between a node and the one at which the walk up the parents stops. -/
def ancestors (parent : String -> Option String) (stop : String) : Nat -> String ->
    Option (List String)
  | 0, _ => none
  | rounds + 1, current =>
    if current = stop then some []
    else
      match parent current with
      | none => some []
      | some up => if up = stop then some [] else (ancestors parent stop rounds up).map (up :: ·)

namespace CycleSearch

def paint (search : CycleSearch) (name : String) (color : Color) : CycleSearch :=
  { search with color := Function.update search.color name color }

def adopt (search : CycleSearch) (name parent : String) : CycleSearch :=
  { search with parent := Function.update search.parent name (some parent) }

/-- A back edge has been found. -/
def close (search : CycleSearch) (u v : String) (between : List String) : CycleSearch :=
  { search with cycles := search.cycles ++ [(v :: u :: between).reverse] }

end CycleSearch

def follow (graph : DependencyGraph) (dfs : String -> CycleSearch -> Option CycleSearch) (u : String)
    (search : CycleSearch) (v : String) : Option CycleSearch :=
  if (graph.lookup v).isSome = false then some search
  else
    match search.color v with
    | .gray => (ancestors search.parent v (graph.length + 1) u).map (search.close u v)
    | .white => dfs v (search.adopt v u)
    | .black => some search

def dfs (graph : DependencyGraph) : Nat -> String -> CycleSearch -> Option CycleSearch
  | 0, _, _ => none
  | frames + 1, u, search =>
    ((graph.getDependencies u).foldlM (graph.follow (dfs graph frames) u)
      (search.paint u .gray)).map fun search => search.paint u .black

/-- The cycles found, if the frames suffice. -/
def detectCycles (graph : DependencyGraph) (frames : Nat) : Option (List (List String)) :=
  (graph.keys.foldlM (fun search name =>
    if search.color name = .white then graph.dfs frames name search else some search)
    ({} : CycleSearch)).map CycleSearch.cycles

/-- Each node depends on the next one and the last one on the first.  No node
occurs twice, but one that depends on itself. -/
def Genuine (graph : DependencyGraph) (cycle : List String) : Prop :=
  ∃ first rest, cycle = first :: rest ∧
    (cycle ++ [first]).IsChain graph.Edge ∧ (cycle.Nodup ∨ cycle = [first, first])

variable {graph : DependencyGraph}

theorem Genuine.transGen {cycle : List String} (genuine : graph.Genuine cycle) :
    ∃ node, TransGen graph.Edge node node := by
  rcases genuine with ⟨first, rest, rfl, chain, _⟩
  refine ⟨first, ?_⟩
  have leads : ∀ (middle : List String) (start : String),
      (start :: middle ++ [first]).IsChain graph.Edge -> TransGen graph.Edge start first := by
    intro middle
    induction middle with
    | nil => exact fun start chain => TransGen.single (List.isChain_cons_cons.mp chain).1
    | cons next middle ih =>
      intro start chain
      rcases List.isChain_cons_cons.mp chain with ⟨step, later⟩
      exact TransGen.head step (ih next later)
  exact leads rest first chain

theorem ancestors_path {parent : String -> Option String} {stop : String} (rounds : Nat)
    {current : String} {rest : List String} (off : current ≠ stop) (member : stop ∈ rest)
    (chain : (current :: rest).IsChain fun lower upper => parent lower = some upper)
    (enough : rest.length < rounds) :
    ∃ between, ancestors parent stop rounds current = some between ∧
      (current :: between ++ [stop]) <+: current :: rest := by
  induction rounds generalizing current rest with
  | zero => exact absurd enough (Nat.not_lt_zero _)
  | succ rounds ih =>
    cases rest with
    | nil => cases member
    | cons up later =>
      rcases List.isChain_cons_cons.mp chain with ⟨step, chain⟩
      unfold ancestors
      rw [if_neg off, step]
      dsimp only
      by_cases there : up = stop
      · rw [if_pos there, there]
        exact ⟨[], rfl, List.prefix_append [current, stop] later⟩
      · rw [if_neg there]
        have behind := (List.mem_cons.mp member).resolve_left (Ne.symm there)
        rcases ih there behind chain (Nat.lt_of_succ_lt_succ enough) with
          ⟨between, walked, part⟩
        rw [walked]
        exact ⟨up :: between, rfl, List.cons_prefix_cons.mpr ⟨rfl, part⟩⟩

theorem genuine_close {u v : String} {path between : List String}
    (part : (u :: between ++ [v]) <+: path) (distinct : path.Nodup)
    (edges : path.IsChain fun lower upper => graph.Edge upper lower) (back : graph.Edge u v) :
    graph.Genuine (v :: u :: between).reverse := by
  have forward : (v :: (u :: between).reverse).IsChain graph.Edge := by
    have within : (u :: between ++ [v]).IsChain fun lower upper => graph.Edge upper lower :=
      List.IsChain.prefix edges part
    have turned := List.isChain_reverse.mpr within
    rwa [List.reverse_append] at turned
  have apart : (u :: between ++ [v]).Nodup := distinct.sublist part.sublist
  have turned : (v :: u :: between).reverse = (u :: between).reverse ++ [v] := List.reverse_cons
  rw [turned]
  cases ways : (u :: between).reverse with
  | nil => exact absurd ways (by simp)
  | cons first rest =>
    rw [ways] at forward
    rcases List.isChain_cons_cons.mp forward with ⟨step, chain⟩
    refine ⟨first, rest ++ [v], rfl, ?_, Or.inl ?_⟩
    · rw [List.append_assoc, List.isChain_append]
      refine ⟨chain, List.isChain_pair.mpr step, ?_⟩
      intro last isLast head isHead
      rw [← ways, List.getLast?_reverse] at isLast
      cases isLast
      cases isHead
      exact back
    · rw [← ways]
      refine (List.perm_append_comm.nodup_iff.mp ?_)
      rw [List.singleton_append, List.nodup_cons, List.mem_reverse, List.nodup_reverse]
      rw [List.nodup_append_comm] at apart
      exact List.nodup_cons.mp apart

/-! ## The search -/

/-- What holds of a search while the nodes of a path are gray, the last one first. -/
structure Searching (graph : DependencyGraph) (path : List String) (search : CycleSearch) : Prop where
  gray : ∀ name, search.color name = .gray <-> name ∈ path
  distinct : path.Nodup
  parents : path.IsChain fun lower upper => search.parent lower = some upper
  edges : path.IsChain fun lower upper => graph.Edge upper lower
  present : ∀ name ∈ path, graph.Present name
  genuine : ∀ cycle ∈ search.cycles, graph.Genuine cycle
  grounded : search.cycles = [] -> ∀ name, search.color name = .black ->
    Acc (fun target source => graph.Edge source target) name

/-- Nodes that have been entered keep their color and their parent, and cycles
that have been found are kept. -/
structure Kept (search later : CycleSearch) : Prop where
  color : ∀ name, search.color name ≠ .white -> later.color name ≠ .white
  parent : ∀ name, search.color name ≠ .white -> later.parent name = search.parent name
  black : ∀ name, search.color name = .black -> later.color name = .black
  cycles : search.cycles <+: later.cycles

theorem Kept.refl (search : CycleSearch) : Kept search search :=
  ⟨fun _ => id, fun _ _ => rfl, fun _ => id, List.prefix_refl _⟩

theorem Kept.trans {first second third : CycleSearch} (before : Kept first second)
    (after : Kept second third) : Kept first third :=
  ⟨fun name entered => after.color name (before.color name entered),
    fun name entered => (after.parent name (before.color name entered)).trans
      (before.parent name entered),
    fun name black => after.black name (before.black name black),
    before.cycles.trans after.cycles⟩

variable {path : List String} {search later : CycleSearch}

theorem Searching.length_lt (searching : Searching graph path search) :
    path.length < graph.length + 1 := by
  have inside : path ⊆ graph.keys :=
    fun name member => present_iff_mem.mp (searching.present name member)
  have short := (searching.distinct.subperm inside).length_le
  unfold Dict.keys at short
  rw [List.length_map] at short
  omega

theorem follow_searching {u v : String} {rest : List String}
    {dfs : String -> CycleSearch -> Option CycleSearch}
    (searching : Searching graph (u :: rest) search) (depends : graph.Depends u v)
    (deeper : ∀ search, search.color v = .white -> graph.Present v ->
      Searching graph (u :: rest) search ->
      (v :: u :: rest).IsChain (fun lower upper => search.parent lower = some upper) ->
      ∃ later, dfs v search = some later ∧ Searching graph (u :: rest) later ∧
        Kept search later ∧ later.color v = .black) :
    ∃ later, graph.follow dfs u search v = some later ∧
      Searching graph (u :: rest) later ∧ Kept search later ∧
      (graph.Present v -> later.color v = .black ∨ later.cycles ≠ []) := by
  unfold follow
  by_cases present : graph.Present v
  · rw [if_neg fun absent => isSome_eq_false_iff.mp absent present]
    cases color : search.color v with
    | black => exact ⟨search, rfl, searching, Kept.refl search, fun _ => .inl color⟩
    | gray =>
      have between : ∃ between,
          ancestors search.parent v (graph.length + 1) u = some between ∧
            graph.Genuine (v :: u :: between).reverse := by
        by_cases same : u = v
        · subst same
          have step : graph.Edge u u := ⟨depends, present⟩
          refine ⟨[], if_pos rfl, u, [u], rfl, ?_, .inr rfl⟩
          exact List.isChain_cons_cons.mpr ⟨step, List.isChain_pair.mpr step⟩
        · have member := ((searching.gray v).mp color)
          rcases ancestors_path (graph.length + 1) same
            ((List.mem_cons.mp member).resolve_left (Ne.symm same)) searching.parents
            (Nat.lt_of_succ_lt searching.length_lt) with ⟨between, walked, part⟩
          exact ⟨between, walked,
            genuine_close part searching.distinct searching.edges ⟨depends, present⟩⟩
      rcases between with ⟨between, walked, genuine⟩
      dsimp only
      rw [walked]
      refine ⟨_, rfl, ⟨searching.gray, searching.distinct, searching.parents, searching.edges,
        searching.present, fun cycle member => ?_, fun none_ => ?_⟩,
        ⟨fun _ => id, fun _ _ => rfl, fun _ => id, List.prefix_append _ _⟩, fun _ => Or.inr ?_⟩
      · rcases List.mem_append.mp member with old | new
        · exact searching.genuine cycle old
        · exact List.mem_singleton.mp new ▸ genuine
      · exact absurd none_ (by simp [CycleSearch.close])
      · simp [CycleSearch.close]
    | white =>
      have off : v ∉ u :: rest := fun member => by
        rw [(searching.gray v).mpr member] at color
        cases color
      have parents : (u :: rest).IsChain
          fun lower upper => (search.adopt v u).parent lower = some upper := by
        refine searching.parents.imp_of_mem_imp fun lower upper member _ same => ?_
        have other : lower ≠ v := fun same => off (same ▸ member)
        exact (Function.update_of_ne other _ _).trans same
      have adopted : Searching graph (u :: rest) (search.adopt v u) :=
        ⟨searching.gray, searching.distinct, parents, searching.edges, searching.present,
          searching.genuine, searching.grounded⟩
      rcases deeper (search.adopt v u) color present adopted
        (List.isChain_cons_cons.mpr ⟨Function.update_self _ _ _, parents⟩) with
        ⟨later, ran, kept, same, black⟩
      refine ⟨later, ran, kept, ⟨same.color, fun name entered => ?_, same.black, same.cycles⟩,
        fun _ => .inl black⟩
      have other : name ≠ v := fun same => entered (same ▸ color)
      exact (same.parent name entered).trans (Function.update_of_ne other _ _)
  · rw [if_pos (isSome_eq_false_iff.mpr present)]
    exact ⟨search, rfl, searching, Kept.refl search, fun here => absurd here present⟩

theorem follows_searching {u : String} {rest : List String}
    {dfs : String -> CycleSearch -> Option CycleSearch} (targets : List String)
    (searching : Searching graph (u :: rest) search)
    (each : ∀ v ∈ targets, ∀ search, Searching graph (u :: rest) search ->
      ∃ later, graph.follow dfs u search v = some later ∧
        Searching graph (u :: rest) later ∧ Kept search later ∧
        (graph.Present v -> later.color v = .black ∨ later.cycles ≠ [])) :
    ∃ later, targets.foldlM (graph.follow dfs u) search = some later ∧
      Searching graph (u :: rest) later ∧ Kept search later ∧
      ∀ v ∈ targets, graph.Present v -> later.color v = .black ∨ later.cycles ≠ [] := by
  induction targets generalizing search with
  | nil =>
    exact ⟨search, rfl, searching, Kept.refl search, fun v none_ => absurd none_ List.not_mem_nil⟩
  | cons v others ih =>
    rcases each v List.mem_cons_self search searching with ⟨middle, step, here, kept, done⟩
    rcases ih here (fun other member => each other (List.mem_cons_of_mem _ member))
      with ⟨later, steps, there, kept_, dones⟩
    refine ⟨later, ?_, there, kept.trans kept_, fun other member present => ?_⟩
    · rw [List.foldlM_cons, step]
      exact steps
    · rcases List.mem_cons.mp member with rfl | behind
      · refine (done present).imp (kept_.black other) fun found none_ => found ?_
        exact List.prefix_nil.mp (none_ ▸ kept_.cycles)
      · exact dones other behind present

theorem dfs_searching (frames : Nat) {u : String} (white : search.color u = .white)
    (present : graph.Present u) (searching : Searching graph path search)
    (parents : (u :: path).IsChain fun lower upper => search.parent lower = some upper)
    (edges : (u :: path).IsChain fun lower upper => graph.Edge upper lower)
    (enough : graph.length < frames + path.length) :
    ∃ later, graph.dfs frames u search = some later ∧ Searching graph path later ∧
      Kept search later ∧ later.color u = .black := by
  induction frames generalizing path search u with
  | zero =>
    have short := searching.length_lt
    omega
  | succ frames ih =>
    have off : u ∉ path := fun member => by
      rw [(searching.gray u).mpr member] at white
      cases white
    have entered : Searching graph (u :: path) (search.paint u .gray) := by
      refine ⟨fun name => ?_, List.nodup_cons.mpr ⟨off, searching.distinct⟩, parents, edges,
        fun name member => ?_, searching.genuine, fun none_ name black => ?_⟩
      · by_cases same : name = u
        · simp [same, CycleSearch.paint]
        · simp [same, CycleSearch.paint, searching.gray]
      · exact (List.mem_cons.mp member).elim (fun same => same ▸ present) (searching.present name)
      · refine searching.grounded none_ name ?_
        by_cases same : name = u
        · simp [same, CycleSearch.paint] at black
        · simpa [same, CycleSearch.paint] using black
    have start : Kept search (search.paint u .gray) := by
      refine ⟨fun name entered => ?_, fun _ _ => rfl, fun name black => ?_, List.prefix_refl _⟩
      · by_cases same : name = u
        · simp [same, CycleSearch.paint]
        · simpa [same, CycleSearch.paint] using entered
      · have other : name ≠ u := by
          rintro rfl
          rw [white] at black
          cases black
        simpa [other, CycleSearch.paint] using black
    rcases @follows_searching graph _ u path (graph.dfs frames) (graph.getDependencies u) entered
      (fun v member search searching => follow_searching searching (mem_getDependencies.mp member)
        fun search white target searching parents =>
          ih white target searching parents
            (List.isChain_cons_cons.mpr ⟨⟨mem_getDependencies.mp member, target⟩, searching.edges⟩)
            (by rw [List.length_cons]; omega)) with ⟨later, ran, kept, same, done⟩
    have whole := start.trans same
    unfold dfs
    rw [ran]
    refine ⟨later.paint u .black, rfl, ⟨fun name => ?_, searching.distinct, ?_, searching.edges,
      searching.present, kept.genuine, fun none_ name black => ?_⟩, ?_, Function.update_self _ _ _⟩
    · by_cases here : name = u
      · simp [here, off, CycleSearch.paint]
      · simp [here, CycleSearch.paint, kept.gray]
    · exact (List.isChain_cons.mp kept.parents).2
    · by_cases here : name = u
      · rw [here]
        refine Acc.intro u fun target edge => ?_
        have settled := done target (mem_getDependencies.mpr edge.1) edge.2
        exact kept.grounded none_ target (settled.resolve_right fun found => found none_)
      · refine kept.grounded none_ name ?_
        simpa [here, CycleSearch.paint] using black
    · refine ⟨fun name entered => ?_, fun name entered => whole.parent name entered,
        fun name black => ?_, whole.cycles⟩
      · by_cases here : name = u
        · simp [here, CycleSearch.paint]
        · simpa [here, CycleSearch.paint] using whole.color name entered
      · by_cases here : name = u
        · simp [here, CycleSearch.paint]
        · simpa [here, CycleSearch.paint] using whole.black name black

theorem detectCycles_genuine {frames : Nat} (enough : graph.length < frames) :
    ∃ cycles, graph.detectCycles frames = some cycles ∧
      (∀ cycle ∈ cycles, graph.Genuine cycle) ∧ (cycles = [] <-> Acyclic graph.Edge) := by
  have rounds : ∀ (listed : List String) (search : CycleSearch), listed ⊆ graph.keys ->
      Searching graph [] search ->
      ∃ later, listed.foldlM (fun search name =>
          if search.color name = .white then graph.dfs frames name search else some search)
          search = some later ∧
        Searching graph [] later ∧ Kept search later ∧
        ∀ name ∈ listed, later.color name ≠ .white := by
    intro listed
    induction listed with
    | nil =>
      exact fun search _ searching => ⟨search, rfl, searching, Kept.refl search,
        fun name none_ => absurd none_ List.not_mem_nil⟩
    | cons name rest ih =>
      intro search inside searching
      have present := present_iff_mem.mpr (inside List.mem_cons_self)
      have first : ∃ middle,
          (if search.color name = .white then graph.dfs frames name search else some search) =
            some middle ∧ Searching graph [] middle ∧ Kept search middle ∧
          middle.color name ≠ .white := by
        by_cases white : search.color name = .white
        · rw [if_pos white]
          rcases dfs_searching frames white present searching (List.IsChain.singleton name)
            (List.IsChain.singleton name) enough with ⟨middle, ran, kept, same, black⟩
          exact ⟨middle, ran, kept, same, by rw [black]; simp⟩
        · rw [if_neg white]
          exact ⟨search, rfl, searching, Kept.refl search, white⟩
      rcases first with ⟨middle, step, kept, same, entered⟩
      rcases ih middle (fun other member => inside (List.mem_cons_of_mem _ member))
        kept with ⟨later, steps, kept_, same_, others⟩
      refine ⟨later, ?_, kept_, same.trans same_, fun other member => ?_⟩
      · rw [List.foldlM_cons, step]
        exact steps
      · rcases List.mem_cons.mp member with rfl | behind
        · exact same_.color other entered
        · exact others other behind
  have start : Searching graph [] ({} : CycleSearch) :=
    ⟨fun name => by simp, List.nodup_nil, List.IsChain.nil, List.IsChain.nil,
      fun name none_ => absurd none_ List.not_mem_nil, fun cycle none_ => absurd none_ List.not_mem_nil,
      fun _ name black => nomatch black⟩
  rcases rounds graph.keys {} (List.Subset.refl _) start with ⟨later, ran, searching, _, entered⟩
  refine ⟨later.cycles, ?_, searching.genuine, fun none_ node cycle => ?_, fun acyclic => ?_⟩
  · unfold detectCycles
    rw [ran]
    rfl
  · rcases TransGen.head'_iff.mp cycle with ⟨_, step, _⟩
    have black : later.color node = .black := by
      cases color : later.color node with
      | white => exact absurd color (entered node (present_iff_mem.mp step.1.present))
      | gray => exact absurd ((searching.gray node).mp color) List.not_mem_nil
      | black => rfl
    exact not_cycle_of_acc (searching.grounded none_ node black) cycle
  · refine List.eq_nil_iff_forall_not_mem.mpr fun cycle member => ?_
    rcases (searching.genuine cycle member).transGen with ⟨node, back⟩
    exact acyclic node back

end DependencyGraph
end Tools
end BreadMind
