import BreadMind.Execution.Machine
import BreadMind.Flow.Validation

namespace BreadMind
namespace Flow

open Execution
open Function (update update_of_ne update_self)

/-!
# The topological order and the progress of readiness

`topological_order` validates the DAG and then goes through it once more, with
a set of visited steps in place of the colours.  It visits a dependency before
it looks whether it was visited, so it goes one call deeper than the search for
cycles; the call of `validate` inside has taken one frame as well.  So what goes
through is what `validate` passes with one frame fewer: a chain that takes all the
frames passes when it is validated first and runs out of them here.

Whatever is completed so far, the first step of the order which is not completed
is ready.
-/

namespace DAG

/-- The recursive `visit` of `topological_order`. -/
def orderVisit (dag : DAG) : Nat -> StepId -> Finset StepId × List StepId ->
    Except PyError (Finset StepId × List StepId)
  | 0, _, _ => .error (.recursionError "maximum recursion depth exceeded")
  | frames + 1, node, (visited, order) =>
    if node ∈ visited then .ok (visited, order)
    else do
      let step ← required node (dag.byId node)
      let done ← step.dependsOn.foldlM (fun done dep => orderVisit dag frames dep done)
        (visited, order)
      return (insert node done.1, done.2 ++ [node])

variable (dag : DAG)

def topologicalOrder : Nat -> Except PyError (List StepId)
  | 0 => .error (.recursionError "maximum recursion depth exceeded")
  | frames + 1 => do
    dag.validate frames
    let done ← dag.steps.foldlM (fun done s => orderVisit dag (frames + 1) s.id done) (∅, [])
    return done.2

theorem topologicalOrder_succ (frames : Nat) :
    dag.topologicalOrder (frames + 1) = (dag.validate frames >>= fun _ =>
      dag.ids.foldlM (fun done sid => orderVisit dag (frames + 1) sid done) (∅, []) >>=
        fun done => .ok done.2) := by
  unfold ids
  rw [List.foldlM_map]
  rfl

/-- Every step stands behind all steps it depends on. -/
def InOrder (order : List StepId) : Prop :=
  ∀ before sid after, order = before ++ sid :: after ->
    ∀ dep, dag.Depends sid dep -> dep ∈ before

/-! ## The two searches side by side -/

structure Mirrors (color : StepId -> Option Color) (done : Finset StepId × List StepId) : Prop where
  visited : ∀ sid, color sid = some .black <-> sid ∈ done.1
  listed : ∀ sid, sid ∈ done.1 <-> sid ∈ done.2
  distinct : done.2.Nodup
  inOrder : dag.InOrder done.2

variable (before after : StepId -> Option Color)

def Blackened : Prop :=
  ∀ sid, after sid = before sid ∨ (before sid = some .white ∧ after sid = some .black)

structure Followed (nodes : List StepId)
    (result : Except PyError (Finset StepId × List StepId)) : Prop where
  blackened : Blackened before after
  black : ∀ node ∈ nodes, after node = some .black
  mirrors : ∃ done, result = .ok done ∧ Mirrors dag after done

section Following

variable {dag : DAG} {before color after : StepId -> Option Color} {sid node : StepId}
variable {done : Finset StepId × List StepId}

theorem Blackened.refl (color : StepId -> Option Color) : Blackened color color :=
  fun _ => .inl rfl

theorem Blackened.trans (first : Blackened before color) (second : Blackened color after) :
    Blackened before after := by
  intro sid
  rcases second sid with same | ⟨white, black⟩
  · rw [same]
    exact first sid
  · rcases first sid with same | ⟨_, other⟩
    · exact .inr ⟨same ▸ white, black⟩
    · rw [other] at white
      cases white

theorem Blackened.keeps (blackened : Blackened before after) {kept : Color}
    (other : kept ≠ .white) (here : before sid = some kept) : after sid = some kept := by
  rcases blackened sid with same | ⟨white, _⟩
  · rw [same]
    exact here
  · rw [here] at white
    exact (other (Option.some.inj white)).elim

theorem followed_foldlM {round : (StepId -> Option Color) -> StepId ->
      Except PyError (StepId -> Option Color)} {second : Finset StepId × List StepId -> StepId ->
      Except PyError (Finset StepId × List StepId)}
    (nodes : List StepId) {usable : (StepId -> Option Color) -> Prop}
    (kept : ∀ earlier later, usable earlier -> Blackened earlier later -> usable later)
    (rounds : ∀ node ∈ nodes, ∀ earlier later sofar, usable earlier ->
      Mirrors dag earlier sofar -> round earlier node = .ok later ->
      Followed dag earlier later [node] (second sofar node))
    (starts : usable before) (mirrors : Mirrors dag before done)
    (ran : nodes.foldlM round before = .ok after) :
    Followed dag before after nodes (nodes.foldlM second done) := by
  induction nodes generalizing before done with
  | nil =>
    cases ran
    exact ⟨.refl _, fun node impossible => (List.not_mem_nil impossible).elim, done, rfl, mirrors⟩
  | cons node rest ih =>
    rw [List.foldlM_cons] at ran
    rcases bind_eq_ok.mp ran with ⟨color, first, later⟩
    rcases rounds node List.mem_cons_self before color done starts mirrors first with
      ⟨blackened, black, reached, came, mirrored⟩
    have further := ih
      (fun other member => rounds other (List.mem_cons_of_mem node member))
      (kept before color starts blackened) mirrored later
    rw [List.foldlM_cons, came]
    refine ⟨blackened.trans further.blackened, ?_, further.mirrors⟩
    intro other member
    rcases List.mem_cons.mp member with rfl | inRest
    · exact further.blackened.keeps (by decide) (black other List.mem_cons_self)
    · exact further.black other inRest

theorem followed_black (mirrors : Mirrors dag color done) (black : color node = some .black)
    (frames : Nat) : Followed dag color color [node] (orderVisit dag (frames + 1) node done) where
  blackened := .refl color
  black := fun _ member => List.mem_singleton.mp member ▸ black
  mirrors := ⟨done, if_pos ((mirrors.visited node).mp black), mirrors⟩

theorem Mirrors.leave (mirrors : Mirrors dag color done) (gray : color node = some .gray)
    (behind : ∀ dep, dag.Depends node dep -> color dep = some .black) :
    Mirrors dag (update color node (some .black)) (insert node done.1, done.2 ++ [node]) := by
  have new : node ∉ done.1 := by
    intro member
    rw [(mirrors.visited node).mpr member] at gray
    cases gray
  refine ⟨?_, ?_, ?_, ?_⟩
  · intro sid
    rw [Finset.mem_insert]
    by_cases same : sid = node
    · rw [same, update_self]
      exact iff_of_true rfl (.inl rfl)
    · rw [update_of_ne same, or_iff_right same]
      exact mirrors.visited sid
  · intro sid
    rw [Finset.mem_insert, List.mem_append, List.mem_singleton, mirrors.listed]
    exact or_comm
  · refine List.Nodup.append mirrors.distinct (List.nodup_singleton node) ?_
    exact List.disjoint_singleton.mpr fun member => new ((mirrors.listed node).mpr member)
  · refine forall_split_append mirrors.inOrder ?_
    intro before sid after split dep depends
    cases before with
    | nil =>
      cases split
      rw [List.append_nil, ← mirrors.listed, ← mirrors.visited]
      exact behind dep depends
    | cons head tail =>
      have rest := (List.cons.inj split).2
      exact (List.append_ne_nil_of_right_ne_nil tail (List.cons_ne_nil sid after) rest.symm).elim

theorem orderVisit_of_byId {step : Step} (found : dag.byId node = some step) (frames : Nat)
    (new : node ∉ done.1) : orderVisit dag (frames + 1) node done =
      ((dag.dependencies node).foldlM (fun done dep => orderVisit dag frames dep done) done >>=
        fun done => .ok (insert node done.1, done.2 ++ [node])) := by
  refine (if_neg new).trans ?_
  rw [found, dependencies_of_byId found]
  rfl

/-- Where the search for cycles has come through with so many frames, the second
search does with one more, by induction on the frames. -/
theorem followed_visit (distinct : dag.ids.Nodup) (frames : Nat)
    (mirrors : Mirrors dag before done) (white : before node = some .white)
    (visited : visit dag frames node before = .ok after) :
    Followed dag before after [node] (orderVisit dag (frames + 1) node done) := by
  induction frames generalizing before after node done with
  | zero => cases visited
  | succ frames ih =>
    cases found : dag.byId node with
    | none =>
      unfold visit at visited
      rw [found] at visited
      cases visited
    | some step =>
      rw [visit_of_byId found] at visited
      rcases bind_eq_ok.mp visited with ⟨color, below, built⟩
      cases built
      have entered : Mirrors dag (update before node (some .gray)) done := by
        refine ⟨?_, mirrors.listed, mirrors.distinct, mirrors.inOrder⟩
        intro sid
        rw [← mirrors.visited]
        by_cases same : sid = node
        · rw [same, update_self, white]
          exact iff_of_false (fun impossible => by cases impossible)
            (fun impossible => by cases impossible)
        · rw [update_of_ne same]
      have followed : Followed dag (update before node (some .gray)) color
          (dag.dependencies node)
          ((dag.dependencies node).foldlM
            (fun done dep => orderVisit dag (frames + 1) dep done) done) := by
        refine followed_foldlM (dag.dependencies node) (fun _ _ _ _ => trivial) ?_ trivial
          entered below
        intro dep _ earlier later sofar _ mirrored ran
        unfold visitDependency at ran
        split at ran
        case h_1 => cases ran
        case h_2 => cases ran
        case h_3 isWhite => exact ih mirrored isWhite ran
        case h_4 black =>
          cases ran
          exact followed_black mirrored black frames
      rcases followed.mirrors with ⟨behind, came, mirrored⟩
      have gray : color node = some .gray :=
        followed.blackened.keeps (by decide) (update_self _ _ _)
      refine ⟨?_, ?_, ?_⟩
      · intro sid
        by_cases same : sid = node
        · rw [same, update_self]
          exact .inr ⟨white, rfl⟩
        · rw [update_of_ne same]
          have changed := followed.blackened sid
          rw [update_of_ne same] at changed
          exact changed
      · intro other member
        rw [List.mem_singleton.mp member]
        exact update_self _ _ _
      · have new : node ∉ done.1 := by
          intro member
          rw [(mirrors.visited node).mpr member] at white
          cases white
        rw [orderVisit_of_byId found (frames + 1) new, came]
        refine ⟨_, rfl, mirrored.leave gray ?_⟩
        intro dep depends
        rw [depends_iff_lists distinct] at depends
        exact followed.black dep depends

end Following

theorem usable_unvisited : ∀ sid ∈ dag.ids,
    dag.unvisited sid = some .white ∨ dag.unvisited sid = some .black :=
  fun _ listed => .inl (unvisited_of_mem listed)

theorem usable_blackened
    (usable : ∀ sid ∈ dag.ids, before sid = some .white ∨ before sid = some .black)
    (blackened : Blackened before after) :
    ∀ sid ∈ dag.ids, after sid = some .white ∨ after sid = some .black := by
  intro sid listed
  rcases blackened sid with same | ⟨_, black⟩
  · rw [same]
    exact usable sid listed
  · exact .inr black

theorem topologicalOrder_of_validate {dag : DAG} {frames : Nat}
    (passes : dag.validate frames = .ok ⟨⟩) :
    ∃ order, dag.topologicalOrder (frames + 1) = .ok order ∧ order.Perm dag.ids ∧
      dag.InOrder order := by
  have well := wellFormed_of_validate passes
  have searched : ∃ color, dag.searchCycles frames = .ok color := by
    rcases bind_eq_ok.mp passes with ⟨_, _, rest⟩
    rcases bind_eq_ok.mp rest with ⟨_, _, rest⟩
    rcases bind_eq_ok.mp rest with ⟨color, came, _⟩
    exact ⟨color, came⟩
  rcases searched with ⟨color, came⟩
  rw [searchCycles_eq] at came
  have followed : Followed dag dag.unvisited color dag.ids
      (dag.ids.foldlM (fun done sid => orderVisit dag (frames + 1) sid done) (∅, [])) := by
    refine followed_foldlM dag.ids (usable_blackened dag) ?_ (usable_unvisited dag) ?_ came
    · intro sid listed earlier later sofar usable mirrored ran
      unfold startSearch at ran
      split at ran
      case isTrue white => exact followed_visit well.distinct frames mirrored white ran
      case isFalse other =>
        cases ran
        exact followed_black mirrored ((usable sid listed).resolve_left other) frames
    · refine ⟨fun sid => iff_of_false (unvisited_ne (by decide)) (Finset.notMem_empty sid),
        fun sid => iff_of_false (Finset.notMem_empty sid) List.not_mem_nil, List.nodup_nil, ?_⟩
      intro before sid after split
      exact (List.append_ne_nil_of_right_ne_nil before (List.cons_ne_nil sid after) split.symm).elim
  rcases followed.mirrors with ⟨done, went, mirrors⟩
  refine ⟨done.2, ?_, ?_, mirrors.inOrder⟩
  · rw [topologicalOrder_succ, passes]
    change (dag.ids.foldlM (fun done sid => orderVisit dag (frames + 1) sid done) (∅, []) >>=
      fun done => .ok done.2) = _
    rw [went]
    rfl
  · refine (List.perm_ext_iff_of_nodup mirrors.distinct well.distinct).mpr fun sid => ?_
    rw [← mirrors.listed, ← mirrors.visited]
    refine ⟨fun black => ?_, followed.black sid⟩
    rcases followed.blackened sid with same | ⟨white, _⟩
    · exact (unvisited_ne (by decide) (same.symm.trans black)).elim
    · by_contra unlisted
      have unknown : dag.unvisited sid = none := if_neg unlisted
      rw [unknown] at white
      cases white

/-- Sets of completed steps, each of which has some more steps than the one
before, all of them ready there, until all steps are completed. -/
structure Rounds (completed : Finset StepId) (rounds : Nat -> Finset StepId) : Prop where
  start : rounds 0 = completed
  advance : ∀ count, rounds count ≠ dag.ids.toFinset ->
    ∃ batch : Finset StepId, batch.Nonempty ∧
      (∀ sid ∈ batch, sid ∈ dag.readySteps (rounds count)) ∧
        rounds (count + 1) = rounds count ∪ batch

section Progress

variable {dag : DAG} {completed : Finset StepId}

theorem listed_of_ready {sid : StepId} (ready : sid ∈ dag.readySteps completed) :
    sid ∈ dag.ids.toFinset ∧ sid ∉ completed := by
  rcases (mem_readySteps dag completed sid).mp ready with ⟨s, member, same, open_, _⟩
  exact ⟨List.mem_toFinset.mpr (List.mem_map.mpr ⟨s, member, same⟩), open_⟩

theorem exists_ready {order : List StepId} (every : order.Perm dag.ids) (inOrder : dag.InOrder order)
    (inside : completed ⊆ dag.ids.toFinset) (open_ : completed ≠ dag.ids.toFinset) :
    ∃ sid, sid ∈ dag.readySteps completed := by
  have missing : ∃ sid ∈ dag.ids.toFinset, sid ∉ completed := by
    by_contra none_
    refine open_ (Finset.Subset.antisymm inside fun sid member => ?_)
    by_contra absent
    exact none_ ⟨sid, member, absent⟩
  rcases missing with ⟨sid, listed, absent⟩
  have somewhere : (order.find? fun sid => decide (sid ∉ completed)).isSome = true :=
    List.find?_isSome.mpr
      ⟨sid, every.mem_iff.mpr (List.mem_toFinset.mp listed), decide_eq_true absent⟩
  rcases Option.isSome_iff_exists.mp somewhere with ⟨first, found⟩
  rcases List.find?_eq_some_iff_append.mp found with ⟨new, before, after, split, completedBefore⟩
  have inIds : first ∈ dag.ids := by
    refine every.mem_iff.mp ?_
    rw [split]
    exact List.mem_append_right before List.mem_cons_self
  rcases List.mem_map.mp inIds with ⟨s, member, same⟩
  refine ⟨first, (mem_readySteps dag completed first).mpr ⟨s, member, same, of_decide_eq_true new, ?_⟩⟩
  intro dep depends
  have earlier := completedBefore dep (inOrder before first after split dep ⟨s, member, same, depends⟩)
  by_contra incomplete
  rw [decide_eq_true incomplete] at earlier
  cases earlier

theorem Rounds.grows {rounds : Nat -> Finset StepId} (advances : dag.Rounds completed rounds)
    (inside : completed ⊆ dag.ids.toFinset) (count : Nat) :
    (∃ earlier, earlier ≤ count ∧ rounds earlier = dag.ids.toFinset) ∨
      (rounds count ⊆ dag.ids.toFinset ∧ count ≤ (rounds count).card) := by
  induction count with
  | zero =>
    rw [advances.start]
    exact .inr ⟨inside, Nat.zero_le _⟩
  | succ count ih =>
    rcases ih with ⟨earlier, before, all⟩ | ⟨within, enough⟩
    · exact .inl ⟨earlier, Nat.le_succ_of_le before, all⟩
    · by_cases all : rounds count = dag.ids.toFinset
      · exact .inl ⟨count, Nat.le_succ count, all⟩
      · rcases advances.advance count all with ⟨batch, ⟨sid, member⟩, ready, next⟩
        rw [next]
        refine .inr ⟨Finset.union_subset within fun other inBatch =>
          (listed_of_ready (ready other inBatch)).1, ?_⟩
        refine Nat.lt_of_le_of_lt enough (Finset.card_lt_card ?_)
        refine (Finset.ssubset_iff_of_subset Finset.subset_union_left).mpr ⟨sid, ?_, ?_⟩
        · exact Finset.mem_union_right _ member
        · exact (listed_of_ready (ready sid member)).2

theorem Rounds.complete {rounds : Nat -> Finset StepId} (advances : dag.Rounds completed rounds)
    (inside : completed ⊆ dag.ids.toFinset) :
    ∃ count, count ≤ dag.steps.length ∧ rounds count = dag.ids.toFinset := by
  rcases advances.grows inside dag.steps.length with finished | ⟨within, enough⟩
  · exact finished
  · refine ⟨dag.steps.length, Nat.le_refl _, Finset.eq_of_subset_of_card_le within ?_⟩
    have few : dag.ids.toFinset.card ≤ dag.ids.length := List.toFinset_card_le dag.ids
    unfold ids at few
    rw [List.length_map] at few
    exact Nat.le_trans few enough

end Progress

theorem overflows_or_validate {dag : DAG} (well : dag.WellFormed) (frames : Nat) :
    (dag.Overflows frames ∧ ∀ result, dag.validate frames ≠ .ok result) ∨
      (¬ dag.Overflows frames ∧ dag.validate frames = .ok ⟨⟩) := by
  have outcome := verdict dag frames
  generalize dag.validate frames = result at outcome
  cases outcome with
  | overflowed deep => exact .inl ⟨deep, nofun⟩
  | refused _ ill => exact absurd well ill
  | passed shallow _ => exact .inr ⟨shallow, rfl⟩

/-- The order is a permutation of the steps, each behind its dependencies. -/
def Ordered (dag : DAG) (frames : Nat) : Prop :=
  ∃ order, dag.topologicalOrder frames = .ok order ∧ order.Perm dag.ids ∧ dag.InOrder order

theorem ordered_iff {dag : DAG} {frames : Nat} (passes : dag.validate frames = .ok ⟨⟩) :
    dag.Ordered frames <-> ∃ fewer, frames = fewer + 1 ∧ ¬ dag.Overflows fewer := by
  have well := wellFormed_of_validate passes
  constructor
  · rintro ⟨order, came, _⟩
    cases frames with
    | zero => cases came
    | succ fewer =>
      refine ⟨fewer, rfl, fun deep => ?_⟩
      rcases overflows_or_validate well fewer with ⟨_, fails⟩ | ⟨shallow, _⟩
      · rcases bind_eq_ok.mp came with ⟨result, checked, _⟩
        exact fails result checked
      · exact shallow deep
  · rintro ⟨fewer, rfl, shallow⟩
    rcases overflows_or_validate well fewer with ⟨deep, _⟩ | ⟨_, checked⟩
    · exact absurd deep shallow
    · exact topologicalOrder_of_validate checked

/-- While a DAG that is passed is not completed some step is ready, and completing ready
steps, whichever they are, completes it in as many rounds as it has steps, or fewer. -/
def Progresses (dag : DAG) : Prop :=
  ∀ completed : Finset StepId, completed ⊆ dag.ids.toFinset -> completed ≠ dag.ids.toFinset ->
    dag.readySteps completed ≠ [] ∧ (∀ sid ∈ dag.readySteps completed, sid ∉ completed) ∧
      ∀ rounds, dag.Rounds completed rounds -> ∃ count,
        count ≤ dag.steps.length ∧ rounds count = dag.ids.toFinset

/-- A DAG that is passed progresses in any case, and has its topological order exactly if the
search for cycles would come through with one frame fewer. -/
theorem dag_progresses_iff (dag : DAG) (frames : Nat) (passes : dag.validate frames = .ok ⟨⟩) :
    (dag.Ordered frames ∧ dag.Progresses <->
      ∃ fewer, frames = fewer + 1 ∧ ¬ dag.Overflows fewer) ∧ dag.Progresses := by
  have progresses : dag.Progresses := by
    rcases topologicalOrder_of_validate passes with ⟨order, _, every, inOrder⟩
    intro completed inside open_
    rcases exists_ready every inOrder inside open_ with ⟨sid, ready⟩
    refine ⟨List.ne_nil_of_mem ready, fun other member => (listed_of_ready member).2, ?_⟩
    exact fun rounds advances => advances.complete inside
  exact ⟨(and_iff_left progresses).trans (ordered_iff passes), progresses⟩

def twoSteps : DAG where
  steps :=
    [{ id := "b", title := "B", tool := .str "noop", args := .obj [], dependsOn := ["a"] },
     { id := "a", title := "A", tool := .str "noop", args := .obj [] }]

theorem dag_progresses_twoSteps : twoSteps.Ordered 3 ∧ twoSteps.readySteps ∅ ≠ [] := by
  have settled := dag_progresses_iff twoSteps 3 rfl
  have shallow : ¬ twoSteps.Overflows 2 := by
    rcases overflows_or_validate (@wellFormed_of_validate twoSteps 3 rfl) 2 with ⟨_, fails⟩ | ⟨shallow, _⟩
    · exact absurd rfl (fails ⟨⟩)
    · exact shallow
  exact ⟨(settled.1.mpr ⟨2, rfl, shallow⟩).1, (settled.2 ∅ (by decide) (by decide)).1⟩

/-- With ten frames left, a chain of ten steps is valid and has no order. -/
theorem chain_not_ordered : (chain 10).validate 10 = .ok ⟨⟩ ∧
    (∃ message, (chain 10).topologicalOrder 10 = .error (.recursionError message)) ∧
    ¬ ∀ dag frames, DAG.validate frames dag = .ok ⟨⟩ -> dag.Ordered frames ∧ dag.Progresses := by
  have passes : (chain 10).validate 10 = .ok ⟨⟩ := rfl
  refine ⟨passes, ⟨_, rfl⟩, fun claim => ?_⟩
  rcases (claim (chain 10) 10 passes).1 with ⟨order, came, _⟩
  cases came

end DAG

end Flow
end BreadMind
