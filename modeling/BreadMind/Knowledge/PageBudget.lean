import BreadMind.Base.Identifiers
import BreadMind.Execution.Machine
import BreadMind.Execution.Windows
import Mathlib.Algebra.Order.BigOperators.Group.List
import Mathlib.Algebra.Order.Group.Int
import Mathlib.Algebra.Ring.Int.Defs

namespace BreadMind
namespace Knowledge
namespace HourlyPageBudget

open Execution

/-!
# The page budget of the connectors

A project may take so many pages in an hour.  The pages are counted in a window
which begins with a call and is given up by the first call that comes an hour
after it, together with what was counted in it.  There is one window for each
project and instance.

Times are microseconds of the monotonic clock.
-/

def hour : Int := 3600000000

structure Window where
  start : Int
  count : Int

structure Key where
  projectId : UUID
  instanceId : Option String
  deriving DecidableEq

abbrev Windows := Key -> Option Window

def exceeded (key : Key) (count pages limit : Int) : String :=
  "project " ++ UUID.text key.projectId ++ " (instance=" ++ key.instanceId.getD "None" ++
    ") exceeded hourly page budget (" ++ toString count ++ "+" ++ toString pages ++ " > " ++
    toString limit ++ ")"

variable (windows : Windows) (key : Key) (time : Int)

/-- No window is there, or it began an hour ago. -/
def Expired : Prop :=
  ∀ window, windows key = some window -> hour ≤ time - window.start

def current : Window :=
  match windows key with
  | none => ⟨time, 0⟩
  | some window => if hour ≤ time - window.start then ⟨time, 0⟩ else window

def consume (limit : Int) (time : Int) (key : Key) (pages : Int) (windows : Windows) :
    Except String Unit × Windows :=
  let window := current windows key time
  if limit < window.count + pages then
    (.error (exceeded key window.count pages limit), Function.update windows key (some window))
  else
    (.ok (), Function.update windows key (some { window with count := window.count + pages }))

structure Request where
  time : Int
  key : Key
  pages : Int
  deriving DecidableEq

structure Taken where
  request : Request
  accepted : Bool
  deriving DecidableEq

structure Budget where
  windows : Windows := fun _ => none
  history : List Taken := []

def succeeded (limit : Int) (windows : Windows) (request : Request) : Bool :=
  !decide (limit < (current windows request.key request.time).count + request.pages)

def serve (limit : Int) (budget : Budget) (request : Request) : Budget where
  windows := (consume limit request.time request.key request.pages budget.windows).2
  history := budget.history ++ [⟨request, succeeded limit budget.windows request⟩]

def serving (limit : Int) : Machine Budget Request where
  initial := {}
  step := serve limit

variable (history : List Taken)

def pages : Int :=
  (history.map fun taken => taken.request.pages).sum

def takenFor (projectId : UUID) (taken : Taken) : Bool :=
  taken.accepted && decide (taken.request.key.projectId = projectId)

/-- In every hour each project has taken no more pages than the limit says. -/
def Sliding (limit : Int) (history : List Taken) : Prop :=
  ∀ projectId start,
    pages (within (takenFor projectId) (fun taken => taken.request.time) hour start history) ≤ limit

def counted (key : Key) : Int :=
  (current windows key time).count

/-- A refused call leaves the pages that are counted as they are, for every key. -/
def RefusedTakesNothing (limit : Int) (budget : Budget) (request : Request) : Prop :=
  succeeded limit budget.windows request = false -> ∀ key,
    counted (serve limit budget request).windows request.time key =
      counted budget.windows request.time key

/-- The windows and the answers of a project are those it has without the other projects. -/
structure Apart (limit : Int) (projectId : UUID) (inputs : List Request) : Prop where
  windows : ∀ instanceId,
    ((serving limit).after inputs).windows ⟨projectId, instanceId⟩ =
      ((serving limit).after (inputs.filter fun request =>
        decide (request.key.projectId = projectId))).windows ⟨projectId, instanceId⟩
  answers : ((serving limit).after inputs).history.filter
        (fun taken => decide (taken.request.key.projectId = projectId)) =
      ((serving limit).after (inputs.filter fun request =>
        decide (request.key.projectId = projectId))).history

/-! ## When it is kept -/

/-- The call is for some pages or none and names the instance which the project has
always named; and a window is only given up when its project has taken nothing
for an hour. -/
structure Rested (budget : Budget) (request : Request) : Prop where
  pages : 0 ≤ request.pages
  instanceId : ∀ taken ∈ budget.history,
    taken.request.key.projectId = request.key.projectId -> taken.request.key = request.key
  idle : Expired budget.windows request.key request.time -> ∀ taken ∈ budget.history,
    taken.accepted = true -> taken.request.key = request.key -> 0 < taken.request.pages ->
      taken.request.time + hour ≤ request.time

variable {limit : Int} {budget : Budget} {request : Request} {inputs : List Request}

theorem current_update {windows : Windows} {key other : Key} {time : Int} {window : Window}
    (young : Not (hour ≤ time - window.start)) :
    current (Function.update windows key (some window)) other time =
      if other = key then window else current windows other time := by
  unfold current
  by_cases same : other = key
  · rw [same, Function.update_self, if_pos rfl]
    exact if_neg young
  · rw [Function.update_of_ne same, if_neg same]

theorem current_young : Not (hour ≤ time - (current windows key time).start) := by
  unfold current hour
  split
  case h_1 =>
    dsimp only
    omega
  case h_2 window _ =>
    split
    case isTrue =>
      dsimp only
      omega
    case isFalse young => exact young

theorem refusedTakesNothing (limit : Int) (budget : Budget) (request : Request) :
    RefusedTakesNothing limit budget request := by
  intro refused key
  have full : limit < (current budget.windows request.key request.time).count + request.pages := by
    unfold succeeded at refused
    rw [Bool.not_eq_false', decide_eq_true_eq] at refused
    exact refused
  unfold counted serve consume
  dsimp only
  rw [if_pos full, current_update (current_young _ _ _)]
  split
  case isTrue same => rw [same]
  case isFalse => rfl

theorem serve_windows_other {key : Key} (other : key ≠ request.key) :
    (serve limit budget request).windows key = budget.windows key := by
  unfold serve consume
  dsimp only
  split <;> exact Function.update_of_ne other _ _

theorem serve_windows_self : (serve limit budget request).windows request.key =
      some { current budget.windows request.key request.time with
        count := (current budget.windows request.key request.time).count +
          if succeeded limit budget.windows request = true then request.pages else 0 } := by
  unfold serve consume succeeded
  dsimp only
  split
  case isTrue full =>
    refine (Function.update_self _ _ _).trans ?_
    rw [decide_eq_true full, if_neg (by decide), Int.add_zero]
  case isFalse some_ =>
    refine (Function.update_self _ _ _).trans ?_
    rw [decide_eq_false some_, if_pos (by decide)]

/-- Induction on the calls: those of other projects change nothing for this one. -/
theorem apart (limit : Int) (projectId : UUID) (inputs : List Request) :
    Apart limit projectId inputs := by
  induction inputs using List.reverseRecOn with
  | nil => exact ⟨fun _ => rfl, rfl⟩
  | append_singleton earlier request ih =>
    by_cases own : request.key.projectId = projectId
    · have filtered : (earlier ++ [request]).filter
          (fun request => decide (request.key.projectId = projectId)) =
        earlier.filter (fun request => decide (request.key.projectId = projectId)) ++ [request] := by
        rw [List.filter_append, List.filter_singleton, decide_eq_true own, cond_true]
      have window := ih.windows request.key.instanceId
      have key : (⟨projectId, request.key.instanceId⟩ : Key) = request.key := by
        rw [← own]
      rw [key] at window
      have same : current ((serving limit).after earlier).windows request.key request.time =
          current ((serving limit).after (earlier.filter fun request =>
            decide (request.key.projectId = projectId))).windows request.key request.time := by
        unfold current
        rw [window]
      constructor
      · intro instanceId
        rw [filtered, Machine.after_append_singleton, Machine.after_append_singleton]
        by_cases here : (⟨projectId, instanceId⟩ : Key) = request.key
        · rw [here]
          refine serve_windows_self.trans (Eq.trans ?_ serve_windows_self.symm)
          unfold succeeded
          rw [same]
        · refine (serve_windows_other here).trans (Eq.trans ?_ (serve_windows_other here).symm)
          exact ih.windows instanceId
      · rw [filtered, Machine.after_append_singleton, Machine.after_append_singleton]
        change ((_ ++ [_] : List Taken).filter _) = _ ++ [_]
        rw [List.filter_append, List.filter_singleton, decide_eq_true own, cond_true, ih.answers]
        unfold succeeded
        rw [same]
    · have filtered : (earlier ++ [request]).filter
          (fun request => decide (request.key.projectId = projectId)) =
        earlier.filter (fun request => decide (request.key.projectId = projectId)) := by
        rw [List.filter_append, List.filter_singleton, decide_eq_false own, cond_false,
          List.append_nil]
      constructor
      · intro instanceId
        rw [filtered, Machine.after_append_singleton]
        refine (serve_windows_other ?_).trans (ih.windows instanceId)
        intro same
        exact own (congrArg Key.projectId same).symm
      · rw [filtered, Machine.after_append_singleton]
        change ((_ ++ [_] : List Taken).filter _) = _
        rw [List.filter_append, List.filter_singleton, decide_eq_false own, cond_false,
          List.append_nil]
        exact ih.answers

/-! ## What a window has counted -/

def takenSince : Int :=
  pages (history.filter fun taken =>
    taken.accepted && (decide (taken.request.key = key) && decide (time < taken.request.time)))

structure Sound (limit : Int) (budget : Budget) : Prop where
  positive : ∀ taken ∈ budget.history, 0 ≤ taken.request.pages
  started : ∀ key window, budget.windows key = some window -> ∃ taken ∈ budget.history, taken.request.time = window.start
  counts : ∀ key window, budget.windows key = some window ->
    window.count = takenSince key (window.start - hour) budget.history
  bounded : ∀ before taken after, budget.history = before ++ taken :: after ->
    taken.accepted = true ->
    pages (recent (takenFor taken.request.key.projectId) (fun other => other.request.time) hour
      taken.request.time (before ++ [taken])) ≤ limit

theorem pages_append (first second : List Taken) :
    pages (first ++ second) = pages first + pages second := by
  unfold pages
  rw [List.map_append, List.sum_append]

theorem pages_mono {fewer more : List Taken} (sublist : fewer.Sublist more)
    (positive : ∀ taken ∈ more, 0 ≤ taken.request.pages) : pages fewer ≤ pages more := by
  unfold pages
  refine (sublist.map _).sum_le_sum ?_
  intro amount member
  rcases List.mem_map.mp member with ⟨taken, isMember, rfl⟩
  exact positive taken isMember

theorem pages_eq_zero {history : List Taken}
    (none : ∀ taken ∈ history, taken.request.pages = 0) : pages history = 0 := by
  unfold pages
  apply List.sum_eq_zero
  intro amount member
  rcases List.mem_map.mp member with ⟨taken, isMember, rfl⟩
  exact none taken isMember

theorem takenSince_append (taken : Taken) :
    takenSince key time (history ++ [taken]) = takenSince key time history +
      if taken.accepted = true ∧ taken.request.key = key ∧ time < taken.request.time then
        taken.request.pages
      else 0 := by
  unfold takenSince
  rw [List.filter_append, pages_append, List.filter_singleton]
  by_cases counts : taken.accepted = true ∧ taken.request.key = key ∧ time < taken.request.time
  · rw [if_pos counts, counts.1, decide_eq_true counts.2.1, decide_eq_true counts.2.2]
    exact congrArg _ (Int.add_zero _)
  · rw [if_neg counts]
    have not : (taken.accepted && (decide (taken.request.key = key) &&
        decide (time < taken.request.time))) = false := by
      rw [← Bool.not_eq_true]
      simpa only [Bool.and_eq_true, decide_eq_true_eq] using counts
    rw [not]
    rfl

theorem Sound.current (sound : Sound limit budget) (rested : Rested budget request)
    (later : ∀ taken ∈ budget.history, taken.request.time ≤ request.time) :
    (current budget.windows request.key request.time).start ≤ request.time ∧
      (current budget.windows request.key request.time).count = takenSince request.key
          ((HourlyPageBudget.current budget.windows request.key request.time).start - hour)
          budget.history := by
  have idle : Expired budget.windows request.key request.time ->
      takenSince request.key (request.time - hour) budget.history = 0 := by
    intro expired
    unfold takenSince
    apply pages_eq_zero
    intro taken member
    rw [List.mem_filter, Bool.and_eq_true, Bool.and_eq_true, decide_eq_true_eq,
      decide_eq_true_eq] at member
    by_contra some_
    have before := rested.idle expired taken member.1 member.2.1 member.2.2.1
      (lt_of_le_of_ne (sound.positive taken member.1) (Ne.symm some_))
    have young := member.2.2.2
    omega
  unfold HourlyPageBudget.current
  cases here : budget.windows request.key with
  | none =>
    refine ⟨Int.le_refl _, (idle ?_).symm⟩
    intro window there
    rw [here] at there
    cases there
  | some window =>
    dsimp only
    by_cases old : hour ≤ request.time - window.start
    · rw [if_pos old]
      refine ⟨Int.le_refl _, (idle ?_).symm⟩
      intro other there
      rw [here] at there
      cases there
      exact old
    · rw [if_neg old]
      rcases sound.started _ _ here with ⟨taken, member, start⟩
      exact ⟨start ▸ later taken member, sound.counts _ _ here⟩

/-- What a project has taken in the last hour is what its key has taken since the
hour before its window began. -/
theorem pages_recent_le (sound : Sound limit budget) (rested : Rested budget request)
    {start : Int} (started : start ≤ request.time) :
    pages (recent (takenFor request.key.projectId) (fun other => other.request.time) hour
      request.time budget.history) ≤ takenSince request.key (start - hour) budget.history := by
  refine pages_mono ?_ ?_
  · unfold recent
    have narrower : ∀ taken ∈ budget.history,
        (takenFor request.key.projectId taken && decide (request.time < taken.request.time + hour)) =
          true -> (taken.accepted && (decide (taken.request.key = request.key) &&
            decide (start - hour < taken.request.time))) = true := by
      intro taken member young
      unfold takenFor at young
      simp only [Bool.and_eq_true, decide_eq_true_eq] at young ⊢
      refine ⟨young.1.1, rested.instanceId taken member young.1.2, ?_⟩
      have recently := young.2
      omega
    have same : budget.history.filter (fun taken => takenFor request.key.projectId taken &&
        decide (request.time < taken.request.time + hour)) =
        (budget.history.filter fun taken => taken.accepted && (decide (taken.request.key =
          request.key) && decide (start - hour < taken.request.time))).filter fun taken =>
            takenFor request.key.projectId taken &&
              decide (request.time < taken.request.time + hour) := by
      rw [List.filter_filter]
      apply List.filter_congr
      intro taken member
      cases young : takenFor request.key.projectId taken &&
          decide (request.time < taken.request.time + hour) with
      | false => rfl
      | true => exact (narrower taken member young).symm
    rw [same]
    exact List.filter_sublist
  · intro taken member
    exact sound.positive taken (List.mem_filter.mp member).1

theorem sound_serve (sound : Sound limit budget) (rested : Rested budget request)
    (later : ∀ taken ∈ budget.history, taken.request.time ≤ request.time) :
    Sound limit (serve limit budget request) := by
  have current := sound.current rested later
  refine ⟨?_, ?_, ?_, ?_⟩
  · intro taken member
    rcases List.mem_append.mp member with old | new
    · exact sound.positive taken old
    · rw [List.mem_singleton.mp new]
      exact rested.pages
  · intro key window there
    by_cases own : key = request.key
    · rw [own, serve_windows_self] at there
      cases there
      dsimp only
      unfold HourlyPageBudget.current
      split
      case h_1 => exact ⟨_, List.mem_append_right _ (List.mem_singleton_self _), rfl⟩
      case h_2 window here =>
        split
        case isTrue => exact ⟨_, List.mem_append_right _ (List.mem_singleton_self _), rfl⟩
        case isFalse =>
          rcases sound.started _ _ here with ⟨taken, member, start⟩
          exact ⟨taken, List.mem_append_left _ member, start⟩
    · rw [serve_windows_other own] at there
      rcases sound.started _ _ there with ⟨taken, member, start⟩
      exact ⟨taken, List.mem_append_left _ member, start⟩
  · intro key window there
    change window.count = takenSince key (window.start - hour) (budget.history ++ [_])
    rw [takenSince_append]
    by_cases own : key = request.key
    · rw [own, serve_windows_self] at there
      cases there
      dsimp only
      rw [own, current.2]
      apply congrArg
      have inside : (HourlyPageBudget.current budget.windows request.key request.time).start - hour <
          request.time := by
        have order := current.1
        unfold hour
        omega
      simp only [inside, and_true]
    · rw [serve_windows_other own] at there
      rw [if_neg fun same => own same.2.1.symm, Int.add_zero]
      exact sound.counts _ _ there
  · refine forall_split_append sound.bounded ?_
    intro before taken after split
    cases before with
    | cons head tail => cases tail <;> cases split
    | nil =>
      cases split
      intro accepted
      dsimp only at accepted
      rw [List.append_nil]
      have enough : (HourlyPageBudget.current budget.windows request.key request.time).count +
          request.pages ≤ limit := by
        unfold succeeded at accepted
        rw [Bool.not_eq_true', decide_eq_false_iff_not] at accepted
        exact Int.not_lt.mp accepted
      have taken := pages_recent_le sound rested current.1
      have last : pages (recent (takenFor request.key.projectId) (fun other => other.request.time)
          hour request.time [⟨request, succeeded limit budget.windows request⟩]) ≤
            request.pages := by
        refine le_trans (pages_mono List.filter_sublist ?_) (Int.le_of_eq (Int.add_zero _))
        intro other member
        rw [List.mem_singleton.mp member]
        exact rested.pages
      dsimp only
      unfold recent at taken last ⊢
      rw [List.filter_append, pages_append]
      rw [current.2] at enough
      omega

theorem Sound.sliding (sound : Sound limit budget) (positive : 0 ≤ limit) :
    Sliding limit budget.history := by
  intro projectId start
  refine @measure_within_le _ _ _ _ _ _ _ _ _ _ pages _ _ ?_ positive ?_ start
  · intro fewer more sublist inside
    exact pages_mono sublist fun taken member => sound.positive taken (inside.subset member)
  · intro before taken after split counts
    unfold takenFor at counts
    rw [Bool.and_eq_true, decide_eq_true_eq] at counts
    have bounded := sound.bounded before taken after split counts.1
    rw [counts.2] at bounded
    exact bounded

theorem sound_initial : Sound limit ({} : Budget) where
  positive := fun _ absent => nomatch absent
  started := fun _ _ absent => nomatch absent
  counts := fun _ _ absent => nomatch absent
  bounded := by
    intro before taken after split
    cases before <;> cases split

theorem history_requests (limit : Int) (inputs : List Request) :
    ((serving limit).after inputs).history.map Taken.request = inputs := by
  induction inputs using List.reverseRecOn with
  | nil => rfl
  | append_singleton earlier request ih =>
    rw [Machine.after_append_singleton]
    change ((_ ++ [_] : List Taken).map _) = _
    rw [List.map_append, ih]
    rfl

theorem later_of_ordered (ordered : inputs.Pairwise fun one other => one.time ≤ other.time) :
    (serving limit).EveryStep (fun budget request =>
      ∀ taken ∈ budget.history, taken.request.time ≤ request.time) inputs := by
  intro before request rest split taken member
  rw [split, List.pairwise_append] at ordered
  refine ordered.2.2 taken.request ?_ request List.mem_cons_self
  rw [← history_requests limit before]
  exact List.mem_map_of_mem member

/-- Over times which do not go back, every hour is within the limit if each project
names one instance and gives no window up within an hour of its pages. A refused call
always takes nothing, and projects are served apart. -/
theorem budgeted_run (limit : Int) (positive : 0 ≤ limit) (inputs : List Request)
    (ordered : inputs.Pairwise fun one other => one.time ≤ other.time)
    (rested : (serving limit).EveryStep Rested inputs) :
    (serving limit).EveryState (fun budget => Sliding limit budget.history) inputs ∧
      (serving limit).EveryStep (RefusedTakesNothing limit) inputs ∧
      ∀ projectId, Apart limit projectId inputs := by
  refine ⟨?_, ?_, fun projectId => apart limit projectId inputs⟩
  · have guarded : (serving limit).EveryStep (fun budget request => Rested budget request ∧
        ∀ taken ∈ budget.history, taken.request.time ≤ request.time) inputs :=
      fun before request rest split => ⟨rested before request rest split,
        later_of_ordered ordered before request rest split⟩
    have sound := (serving limit).guarded_everyState (Sound limit) _ sound_initial
      (fun _ _ sound both => sound_serve sound both.1 both.2) inputs guarded
    exact fun before rest split => (sound before rest split).sliding positive
  · exact fun before request rest split => refusedTakesNothing limit _ request

/-- A call an hour after the last one gives up a window which has nothing recent. -/
def hourApart : List Request :=
  [⟨0, ⟨7, none⟩, 1000⟩, ⟨3600000000, ⟨7, none⟩, 1000⟩]

theorem budgeted_hourApart :
    (serving 1000).EveryState (fun budget => Sliding 1000 budget.history) hourApart ∧
      (serving 1000).EveryStep (RefusedTakesNothing 1000) hourApart ∧
      ∀ projectId, Apart 1000 projectId hourApart := by
  refine budgeted_run 1000 (by decide) hourApart (by decide) ?_
  refine (Machine.everyStep_iff_stepsFrom _ _ _).mpr ⟨?_, ?_, trivial⟩
  · exact ⟨by decide, fun _ absent => (nomatch absent), fun _ _ absent => (nomatch absent)⟩
  · refine ⟨by decide, ?_, ?_⟩
    · intro taken member _
      rw [List.mem_singleton.mp member]
    · intro _ taken member _ _ _
      rw [List.mem_singleton.mp member]
      decide

/-- Almost all of the pages are taken in the last second of a window, and as many
again in the first second of the next one. -/
def aroundReset : List Request :=
  [⟨0, ⟨7, none⟩, 1⟩, ⟨3599000000, ⟨7, none⟩, 999⟩, ⟨3600000000, ⟨7, none⟩, 1000⟩]

theorem limit_exceeded_aroundReset :
    Not ((serving 1000).EveryState (fun budget => Sliding 1000 budget.history) aroundReset) := by
  intro every
  have history : ((serving 1000).after aroundReset).history =
      aroundReset.map fun request => ⟨request, true⟩ := by decide
  have sliding := Machine.EveryState.last _ every 7 3599000000
  rw [history] at sliding
  exact absurd sliding (by decide)

end HourlyPageBudget
end Knowledge
end BreadMind
