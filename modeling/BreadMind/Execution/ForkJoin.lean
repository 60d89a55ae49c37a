import BreadMind.Execution.Coroutines
import BreadMind.Execution.Logs
import Mathlib.Data.List.Flatten
import Mathlib.Data.List.Nodup
import Mathlib.Logic.Hydra

namespace BreadMind
namespace Execution

/-!
# Waves of jobs on one event loop

A wave of jobs is forked together, its jobs move in any order, and the next
wave is forked when the last of them is done.

When every wave is a single job or writes nothing, all interleavings agree
with running the jobs one after the other.  The value kept by a move is the
result of running what is left sequentially.  Every interleaving comes to an
end, because a move replaces one unfinished job by at most one later form of
it.
-/

universe u v w

structure ForkJoin (Key : Type w) (State : Type u) (Output : Type v) where
  shared : State
  waves : List (List (Key × Job State Output))
  results : List (Key × Output)
  events : List (JobEvent Key)

namespace ForkJoin

variable {Key : Type w} {State : Type u} {Output : Type v}

/-- What the event loop does next: it resumes the job at a place of the wave
under way, or the caller that waits for the wave. -/
inductive Move where
  | job (place : Nat)
  | join

variable (shared : State) (waves : List (List (Key × Coroutine State Output)))

def fork : ForkJoin Key State Output :=
  ⟨shared, waves.map fun wave => wave.map fun entry => (entry.1, .queued entry.2), [], []⟩

def attempt (state : ForkJoin Key State Output) : Move -> Option (ForkJoin Key State Output)
  | .job place =>
    match state.waves with
    | [] => none
    | wave :: rest =>
      match wave[place]? with
      | none => none
      | some entry =>
        match entry.2.move entry.1 state.shared with
        | none => none
        | some (shared, job, events) =>
          some ⟨shared, wave.set place (entry.1, job) :: rest, state.results,
            state.events ++ events⟩
  | .join =>
    match state.waves with
    | [] => none
    | wave :: rest =>
      if wave.all fun entry => entry.2.output?.isSome then
        some ⟨state.shared, rest,
          state.results ++ wave.filterMap fun entry => entry.2.output?.map (Prod.mk entry.1),
          state.events⟩
      else none

def machine : Machine (ForkJoin Key State Output) Move where
  initial := fork shared waves
  step := fun state move => (state.attempt move).getD state

variable {next : ForkJoin Key State Output} {move : Move}

/-- What a move does: one job of the wave under way moves, or the wave is joined. -/
theorem attempt_eq_some {state : ForkJoin Key State Output}
    (moves : state.attempt move = some next) : (∃ before entry behind rest,
      ∃ moved : State × Job State Output × List (JobEvent Key),
        state.waves = (before ++ entry :: behind) :: rest ∧
          entry.2.move entry.1 state.shared = some moved ∧
          next = ⟨moved.1, (before ++ (entry.1, moved.2.1) :: behind) :: rest, state.results,
            state.events ++ moved.2.2⟩) ∨ ∃ outputs : List (Key × Output), ∃ rest,
        state.waves = (outputs.map fun output => (output.1, .done output.2)) :: rest ∧
          next = ⟨state.shared, rest, state.results ++ outputs, state.events⟩ := by
  cases move with
  | job place =>
    left
    cases left : state.waves with
    | nil => simp [attempt, left] at moves
    | cons wave rest =>
      cases found : wave[place]? with
      | none => simp [attempt, left, found] at moves
      | some entry =>
        cases moved : entry.2.move entry.1 state.shared with
        | none => simp [attempt, left, found, moved] at moves
        | some moved' =>
          simp only [attempt, left, found, moved, Option.some.injEq] at moves
          rcases List.getElem?_eq_some_iff.1 found with ⟨bound, rfl⟩
          rw [List.set_eq_take_append_cons_drop, if_pos bound] at moves
          refine ⟨wave.take place, wave[place], wave.drop (place + 1), rest, moved', ?_, moved,
            moves.symm⟩
          rw [List.getElem_cons_drop, List.take_append_drop]
  | join =>
    right
    cases left : state.waves with
    | nil => simp [attempt, left] at moves
    | cons wave rest =>
      simp only [attempt, left, Option.ite_none_right_eq_some, Option.some.injEq] at moves
      refine ⟨_, rest, ?_, moves.2.symm⟩
      congr 1
      have finished := moves.1
      clear moves left
      induction wave with
      | nil => rfl
      | cons entry wave ih =>
        rcases entry with ⟨key, _ | _ | output⟩
        · simp [Job.output?] at finished
        · simp [Job.output?] at finished
        · simp only [List.all_cons, Bool.and_eq_true] at finished
          change _ :: _ = _ :: _
          exact congrArg _ (ih finished.2)

theorem attempt_isSome {state : ForkJoin Key State Output} (unfinished : state.waves ≠ []) :
    ∃ move, (state.attempt move).isSome := by
  cases left : state.waves with
  | nil => exact absurd left unfinished
  | cons wave rest =>
    by_cases finished : wave.all fun entry => entry.2.output?.isSome
    · refine ⟨.join, ?_⟩
      simp only [attempt, left, if_pos finished, Option.isSome_some]
    · simp only [List.all_eq_true, not_forall, Bool.not_eq_true, Option.isSome_eq_false_iff,
        Option.isNone_iff_eq_none] at finished
      rcases finished with ⟨entry, member, waits⟩
      rcases List.getElem?_of_mem member with ⟨place, found⟩
      refine ⟨.job place, ?_⟩
      rcases Option.isSome_iff_exists.1 (entry.2.move_isSome entry.1 state.shared waits) with
        ⟨moved, moves⟩
      simp only [attempt, left, found, moves, Option.isSome_some]

def pending (state : ForkJoin Key State Output) : Multiset (Job State Output) :=
  ((state.waves.flatten.map Prod.snd).filter Job.pending : List _)

/-- A move replaces a pending job by at most one later form of it, or joins a wave. -/
def Closer : ForkJoin Key State Output -> ForkJoin Key State Output -> Prop :=
  InvImage (Prod.Lex (Relation.CutExpand Job.Later) (fun fewer more : Nat => fewer < more))
    fun state => (state.pending, state.waves.length)

theorem wellFounded_closer : WellFounded (@Closer Key State Output) :=
  InvImage.wf _ (WellFounded.prod_lex Job.wellFounded_later.cutExpand wellFounded_lt)

theorem exchanged {Element : Type u} (keep : Element -> Bool) (before behind rest : List Element)
    (old new : Element) (kept : keep old = true) :
    (((before ++ new :: behind ++ rest).filter keep : List Element) : Multiset Element) + {old} =
      ((before ++ old :: behind ++ rest).filter keep : List Element) +
        (([new].filter keep : List Element) : Multiset Element) := by
  have single : ({old} : Multiset Element) =
      (([old].filter keep : List Element) : Multiset Element) := by
    rw [List.filter_cons_of_pos kept]
    rfl
  rw [single, Multiset.coe_add, Multiset.coe_add, ← List.filter_append, ← List.filter_append]
  refine Multiset.coe_eq_coe.2 (List.Perm.filter keep ?_)
  refine Multiset.coe_eq_coe.1 ?_
  simp only [← Multiset.coe_add, ← Multiset.cons_coe, ← Multiset.singleton_add]
  ac_rfl

theorem closer_of_attempt {state : ForkJoin Key State Output}
    (moves : state.attempt move = some next) : Closer next state := by
  rcases attempt_eq_some moves with
    ⟨before, entry, behind, rest, moved, left, turn, rfl⟩ | ⟨outputs, rest, left, rfl⟩
  · refine Prod.Lex.left _ _ ⟨(([moved.2.1].filter Job.pending : List _) :
      Multiset (Job State Output)), entry.2, ?_, ?_⟩
    · intro job member
      rw [List.mem_singleton.1 (List.mem_filter.1 (Multiset.mem_coe.1 member)).1]
      exact Job.later_of_move turn
    · have unfinished : entry.2.pending = true := by
        rcases entry with ⟨key, _ | _ | output⟩
        · rfl
        · rfl
        · cases turn
      simp only [pending, left, List.flatten_cons, List.map_append, List.map_cons]
      exact exchanged _ _ _ _ _ _ unfinished
  · have same : ForkJoin.pending ⟨state.shared, rest, state.results ++ outputs, state.events⟩ =
        state.pending := by
      have none_left : (outputs.map fun output => (Job.done output.2 : Job State Output)).filter
          Job.pending = [] := by
        refine List.filter_eq_nil_iff.2 fun job member => ?_
        rcases List.mem_map.1 member with ⟨output, _, rfl⟩
        exact Bool.false_ne_true
      simp only [pending, left, List.flatten_cons, List.map_append, List.map_map, List.filter_append]
      exact congrArg _ (congrArg (· ++ _) none_left).symm
    change Prod.Lex _ _ (_, _) (_, _)
    rw [same, left]
    exact Prod.Lex.right _ (Nat.lt_succ_self _)

/-! ## All interleavings give one result -/

def runAll : List (Key × Coroutine State Output) -> State -> State × List (Key × Output)
  | [], shared => (shared, [])
  | entry :: rest, shared =>
    let first := entry.2.run shared
    let others := runAll rest first.1
    (others.1, (entry.1, first.2) :: others.2)

theorem runAll_append (first second : List (Key × Coroutine State Output)) (shared : State) :
    runAll (first ++ second) shared = ((runAll second (runAll first shared).1).1,
        (runAll first shared).2 ++ (runAll second (runAll first shared).1).2) := by
  induction first generalizing shared with
  | nil => rfl
  | cons entry rest ih => simp only [List.cons_append, runAll, ih]

theorem runAll_quiet {bodies : List (Key × Coroutine State Output)}
    (quiet : ∀ entry ∈ bodies, entry.2.Quiet) : (runAll bodies shared).1 = shared := by
  induction bodies with
  | nil => rfl
  | cons entry rest ih =>
    rw [runAll, (quiet entry List.mem_cons_self).run_fst]
    exact ih fun other member => quiet other (List.mem_cons_of_mem _ member)

def remaining (entry : Key × Job State Output) : Key × Coroutine State Output :=
  (entry.1, entry.2.body)

def outcome (state : ForkJoin Key State Output) : State × List (Key × Output) :=
  let rest := runAll (state.waves.flatten.map remaining) state.shared
  (rest.1, state.results ++ rest.2)

/-- A wave of one job, or of jobs which write nothing. -/
def Exclusive (wave : List (Key × Job State Output)) : Prop :=
  wave.length ≤ 1 ∨ ∀ entry ∈ wave, entry.2.body.Quiet

variable {before behind : List (Key × Job State Output)} {entry : Key × Job State Output}
variable {moved : State × Job State Output × List (JobEvent Key)}

/-- Inside an exclusive wave a move changes neither what its job will return
nor what the others read. -/
theorem runAll_move {shared : State} (exclusive : Exclusive (before ++ entry :: behind))
    (turn : entry.2.move entry.1 shared = some moved) :
    runAll ((before ++ (entry.1, moved.2.1) :: behind).map remaining) moved.1 =
      runAll ((before ++ entry :: behind).map remaining) shared := by
  have head : runAll (((entry.1, moved.2.1) :: behind).map remaining) moved.1 =
      runAll ((entry :: behind).map remaining) shared := by
    simp only [List.map_cons, runAll, remaining, Job.run_move turn]
  rcases exclusive with short | quiet
  · have alone : before = [] := by
      rw [List.length_append, List.length_cons] at short
      exact List.eq_nil_of_length_eq_zero (by omega)
    rw [alone]
    exact head
  · have silent : ∀ state, (runAll (before.map remaining) state).1 = state := by
      intro state
      refine runAll_quiet state fun body member => ?_
      rcases List.mem_map.1 member with ⟨other, among, rfl⟩
      exact quiet other (List.mem_append_left _ among)
    have same : moved.1 = shared :=
      (Job.quiet_move turn (quiet entry (List.mem_append_right _ List.mem_cons_self))).1
    rw [same] at head
    rw [List.map_append, List.map_append, runAll_append, runAll_append, silent, same, silent, head]

theorem exclusive_move {shared : State} (exclusive : Exclusive (before ++ entry :: behind))
    (turn : entry.2.move entry.1 shared = some moved) :
    Exclusive (before ++ (entry.1, moved.2.1) :: behind) := by
  rcases exclusive with short | quiet
  · left
    rwa [List.length_append, List.length_cons] at short ⊢
  · right
    intro other member
    rcases List.mem_append.1 member with among | among
    · exact quiet other (List.mem_append_left _ among)
    · rcases List.mem_cons.1 among with rfl | among
      · exact (Job.quiet_move turn (quiet entry (List.mem_append_right _ List.mem_cons_self))).2
      · exact quiet other (List.mem_append_right _ (List.mem_cons_of_mem _ among))

theorem runAll_done (outputs : List (Key × Output)) (shared : State) :
    runAll ((outputs.map fun output => (output.1, Job.done output.2)).map remaining) shared =
      (shared, outputs) := by
  induction outputs with
  | nil => rfl
  | cons output rest ih => simp only [List.map_cons, runAll, remaining, Job.body, Coroutine.run, ih]

theorem outcome_attempt {state : ForkJoin Key State Output}
    (exclusive : ∀ wave ∈ state.waves, Exclusive wave) (moves : state.attempt move = some next) :
    (∀ wave ∈ next.waves, Exclusive wave) ∧ next.outcome = state.outcome := by
  rcases attempt_eq_some moves with
    ⟨before, entry, behind, rest, moved, left, turn, rfl⟩ | ⟨outputs, rest, left, rfl⟩
  · rw [left] at exclusive
    have current := exclusive _ List.mem_cons_self
    refine ⟨?_, ?_⟩
    · intro wave member
      rcases List.mem_cons.1 member with rfl | among
      · exact exclusive_move current turn
      · exact exclusive wave (List.mem_cons_of_mem _ among)
    · have whole :
          runAll ((before ++ (entry.1, moved.2.1) :: behind ++ rest.flatten).map remaining) moved.1 =
            runAll ((before ++ entry :: behind ++ rest.flatten).map remaining) state.shared := by
        rw [List.map_append, runAll_append, runAll_move current turn, ← runAll_append,
          ← List.map_append]
      simp only [outcome, left, List.flatten_cons, whole]
  · rw [left] at exclusive
    refine ⟨fun wave member => exclusive wave (List.mem_cons_of_mem _ member), ?_⟩
    simp only [outcome, left, List.flatten_cons, List.map_append, runAll_append, runAll_done,
      List.append_assoc]

theorem invariant_machine
    (invariant : ForkJoin Key State Output -> Prop) (initially : invariant (fork shared waves))
    (kept : ∀ state next move, invariant state -> state.attempt move = some next -> invariant next)
    (moves : List Move) : invariant ((machine shared waves).after moves) := by
  refine (machine shared waves).invariant_after invariant initially ?_ moves
  intro state move holds
  change invariant ((state.attempt move).getD state)
  cases moved : state.attempt move with
  | none => exact holds
  | some next => exact kept state next move holds moved

theorem remaining_fork : (fork shared waves).waves.flatten.map remaining = waves.flatten := by
  unfold fork
  rw [List.map_flatten, List.map_map]
  congr 1
  refine List.map_id'' (fun wave => ?_) waves
  simp only [Function.comp_apply, List.map_map]
  exact List.map_id wave

/-- In every interleaving what is done and what is left add up to the sequential run. -/
theorem outcome_after (exclusive : ∀ wave ∈ waves,
      wave.length ≤ 1 ∨ ∀ entry ∈ wave, entry.2.Quiet) (moves : List Move) :
    ((machine shared waves).after moves).outcome = runAll waves.flatten shared := by
  have kept := invariant_machine shared waves
    (fun state => (∀ wave ∈ state.waves, Exclusive wave) ∧
      state.outcome = runAll waves.flatten shared) ⟨?_, ?_⟩
    (fun state next move invariant moved =>
      have step := outcome_attempt invariant.1 moved
      ⟨step.1, step.2.trans invariant.2⟩) moves
  · exact kept.2
  · intro wave member
    rcases List.mem_map.1 member with ⟨bodies, among, rfl⟩
    rcases exclusive bodies among with short | quiet
    · left
      rwa [List.length_map]
    · right
      intro entry inside
      rcases List.mem_map.1 inside with ⟨body, here, rfl⟩
      exact quiet body here
  · rw [outcome, remaining_fork]
    rfl

/-! ## The order of the events -/

/-- The keys of the waves in the order of the waves. -/
def plan : List (List Key) :=
  waves.map fun wave => wave.map Prod.fst

/-- A job starts only after every job of the earlier waves has finished. -/
def Allowed (plan : List (List Key)) (before : List (JobEvent Key)) (event : JobEvent Key) : Prop :=
  ∀ passed wave behind, plan = passed ++ wave :: behind ->
    ∀ second ∈ wave, event = .started second ->
      ∀ first ∈ passed.flatten, .finished first ∈ before

variable {key : Key}

theorem passed_unique {plan passed passed' behind behind' : List (List Key)} {wave wave' : List Key}
    (distinct : plan.flatten.Nodup) (split : plan = passed ++ wave :: behind)
    (split' : plan = passed' ++ wave' :: behind') (member : key ∈ wave)
    (member' : key ∈ wave') : passed = passed' := by
  have apart : ∀ {first middle last : List (List Key)} {left right : List Key},
      plan = first ++ left :: (middle ++ right :: last) -> key ∈ left -> key ∈ right -> False := by
    intro first middle last left right whole inLeft inRight
    rw [whole, List.flatten_append, List.flatten_cons, List.flatten_append,
      List.flatten_cons] at distinct
    have tail := (List.nodup_append.1 distinct).2.1
    exact (List.nodup_append.1 tail).2.2 key inLeft key
      (List.mem_append_right _ (List.mem_append_left _ inRight)) rfl
  rcases List.append_eq_append_iff.1 (split.symm.trans split') with
    ⟨middle, same, rest⟩ | ⟨middle, same, rest⟩
  · cases middle with
    | nil => rw [same, List.append_nil]
    | cons head middle =>
      rcases List.cons.inj rest with ⟨rfl, rfl⟩
      exact (apart split member member').elim
  · cases middle with
    | nil => rw [same, List.append_nil]
    | cons head middle =>
      rcases List.cons.inj rest with ⟨rfl, rfl⟩
      exact (apart split' member' member).elim

variable [DecidableEq Key]

def eventsOf (key : Key) (events : List (JobEvent Key)) : List (JobEvent Key) :=
  events.filter fun event => event.key = key

/-- What the log of the event loop says about the jobs. -/
structure Recorded (plan joined : List (List Key)) (state : ForkJoin Key State Output) : Prop where
  split : plan = joined ++ state.waves.map fun wave => wave.map Prod.fst
  returned : state.results.map Prod.fst = joined.flatten
  past : ∀ key ∈ joined.flatten, eventsOf key state.events = [.started key, .finished key]
  current : ∀ entry ∈ state.waves.flatten,
    eventsOf entry.1 state.events = entry.2.history entry.1
  known : ∀ event ∈ state.events, event.key ∈ plan.flatten
  ordered : Each (Allowed plan) state.events

theorem eventsOf_append (key : Key) (first second : List (JobEvent Key)) :
    eventsOf key (first ++ second) = eventsOf key first ++ eventsOf key second :=
  List.filter_append first second

theorem eventsOf_self {events : List (JobEvent Key)}
    (own : ∀ event ∈ events, event.key = key) : eventsOf key events = events :=
  List.filter_eq_self.2 fun event member => decide_eq_true (own event member)

theorem eventsOf_other {other : Key} {events : List (JobEvent Key)}
    (own : ∀ event ∈ events, event.key = key) (different : other ≠ key) :
    eventsOf other events = [] :=
  List.filter_eq_nil_iff.2 fun event member same =>
    different ((of_decide_eq_true same).symm.trans (own event member))

/-- Moving a job adds its own events to the log and nothing else. -/
theorem recorded_move {plan joined : List (List Key)} {state : ForkJoin Key State Output}
    (distinct : plan.flatten.Nodup) (recorded : Recorded plan joined state)
    {rest : List (List (Key × Job State Output))}
    (left : state.waves = (before ++ entry :: behind) :: rest)
    (turn : entry.2.move entry.1 state.shared = some moved) :
    Recorded plan joined ⟨moved.1, (before ++ (entry.1, moved.2.1) :: behind) :: rest, state.results,
      state.events ++ moved.2.2⟩ := by
  have own := Job.key_of_move turn
  have split := recorded.split
  rw [left, List.map_cons, List.map_append, List.map_cons] at split
  have inside : entry.1 ∈ before.map Prod.fst ++ entry.1 :: behind.map Prod.fst :=
    List.mem_append_right _ List.mem_cons_self
  have elsewhere : ∀ key ∈ joined.flatten, key ≠ entry.1 := by
    rintro key among rfl
    rw [split, List.flatten_append, List.flatten_cons] at distinct
    exact (List.nodup_append.1 distinct).2.2 entry.1 among entry.1 (List.mem_append_left _ inside) rfl
  have others : ∀ other : Key × Job State Output,
      other ∈ before ∨ other ∈ behind ∨ other ∈ rest.flatten -> other.1 ≠ entry.1 := by
    have keys : (entry.1 :: (before.map Prod.fst ++ (behind ++ rest.flatten).map Prod.fst)).Nodup := by
      rw [split, List.flatten_append, List.flatten_cons, ← List.map_flatten] at distinct
      rw [← List.nodup_middle, List.map_append, ← List.cons_append, ← List.append_assoc]
      exact (List.nodup_append.1 distinct).2.1
    rintro other place same
    refine (List.nodup_cons.1 keys).1 (same ▸ ?_)
    rcases place with among | among | among
    · exact List.mem_append_left _ (List.mem_map_of_mem among)
    · exact List.mem_append_right _ (List.mem_map_of_mem (List.mem_append_left _ among))
    · exact List.mem_append_right _ (List.mem_map_of_mem (List.mem_append_right _ among))
  refine ⟨?_, recorded.returned, ?_, ?_, ?_, ?_⟩
  · rw [split, List.map_cons, List.map_append, List.map_cons]
  · intro key among
    rw [eventsOf_append, recorded.past key among, eventsOf_other own (elsewhere key among)]
    rfl
  · intro other member
    have unmoved : other ∈ before ∨ other ∈ behind ∨ other ∈ rest.flatten ->
        eventsOf other.1 (state.events ++ moved.2.2) = other.2.history other.1 := by
      intro place
      rw [eventsOf_append, eventsOf_other own (others other place), List.append_nil]
      refine recorded.current other ?_
      rw [left, List.flatten_cons, List.mem_append, List.mem_append, List.mem_cons]
      grind
    rw [List.flatten_cons, List.mem_append, List.mem_append, List.mem_cons] at member
    rcases member with (among | rfl | among) | among
    · exact unmoved (.inl among)
    · rw [eventsOf_append, eventsOf_self own, Job.history_move turn]
      refine congrArg (· ++ moved.2.2) (recorded.current entry ?_)
      rw [left, List.flatten_cons]
      exact List.mem_append_left _ (List.mem_append_right _ List.mem_cons_self)
    · exact unmoved (.inr (.inl among))
    · exact unmoved (.inr (.inr among))
  · intro event member
    rcases List.mem_append.1 member with old | new
    · exact recorded.known event old
    · rw [own event new, split, List.flatten_append, List.flatten_cons]
      exact List.mem_append_right _ (List.mem_append_left _ inside)
  · refine recorded.ordered.append (eachAfter_of_forall fun event member log grown => ?_)
    intro passed wave waiting whole second among starts first earlier
    have same : second = entry.1 := by rw [← own event member, starts]; rfl
    rw [passed_unique distinct whole split among (same ▸ inside)] at earlier
    refine grown.subset ?_
    have past := recorded.past first earlier
    have finished : JobEvent.finished first ∈ eventsOf first state.events := by
      rw [past]
      exact List.mem_cons_of_mem _ List.mem_cons_self
    exact (List.mem_filter.1 finished).1

theorem recorded_join {plan joined : List (List Key)} {state : ForkJoin Key State Output}
    (recorded : Recorded plan joined state) {outputs : List (Key × Output)}
    {rest : List (List (Key × Job State Output))}
    (left : state.waves = (outputs.map fun output => (output.1, .done output.2)) :: rest) :
    Recorded plan (joined ++ [outputs.map Prod.fst])
      ⟨state.shared, rest, state.results ++ outputs, state.events⟩ := by
  refine ⟨?_, ?_, ?_, ?_, recorded.known, recorded.ordered⟩
  · rw [recorded.split, left, List.map_cons, List.map_map, List.append_assoc]
    rfl
  · rw [List.map_append, recorded.returned, List.flatten_append, List.flatten_singleton]
  · intro key member
    rw [List.flatten_append, List.flatten_singleton] at member
    rcases List.mem_append.1 member with old | new
    · exact recorded.past key old
    · rcases List.mem_map.1 new with ⟨output, among, rfl⟩
      refine recorded.current (output.1, .done output.2) ?_
      rw [left, List.flatten_cons]
      exact List.mem_append_left _ (List.mem_map.2 ⟨output, among, rfl⟩)
  · intro entry member
    refine recorded.current entry ?_
    rw [left, List.flatten_cons]
    exact List.mem_append_right _ member

theorem recorded_after (shared : State) (waves : List (List (Key × Coroutine State Output)))
    (distinct : (plan waves).flatten.Nodup) (moves : List Move) :
    ∃ joined, Recorded (plan waves) joined ((machine shared waves).after moves) := by
  refine invariant_machine shared waves
    (fun state => ∃ joined, Recorded (plan waves) joined state)
    ⟨[], ?_, rfl, ?_, ?_, ?_, each_nil⟩ ?_ moves
  · unfold plan fork
    rw [List.nil_append, List.map_map]
    refine List.map_congr_left fun wave _ => ?_
    rw [Function.comp_apply, List.map_map]
    rfl
  · exact fun key member => absurd member List.not_mem_nil
  · intro entry member
    rcases List.mem_flatten.1 member with ⟨wave, among, here⟩
    rcases List.mem_map.1 among with ⟨bodies, _, rfl⟩
    rcases List.mem_map.1 here with ⟨body, _, rfl⟩
    rfl
  · exact fun event member => absurd member List.not_mem_nil
  · rintro state next move ⟨joined, recorded⟩ moves
    rcases attempt_eq_some moves with
      ⟨before, entry, behind, rest, moved, left, turn, rfl⟩ | ⟨outputs, rest, left, rfl⟩
    · exact ⟨joined, recorded_move distinct recorded left turn⟩
    · exact ⟨_, recorded_join recorded left⟩

variable {plan joined : List (List Key)} {state : ForkJoin Key State Output}

/-- At every time a job has started at most once and finished at most once,
and it has not finished before it has started. -/
theorem Recorded.eventsOf_prefix (recorded : Recorded plan joined state) (key : Key) :
    eventsOf key state.events <+: [.started key, .finished key] := by
  by_cases past : key ∈ joined.flatten
  · exact ⟨[], by rw [recorded.past key past]; rfl⟩
  · by_cases current : key ∈ (state.waves.map fun wave => wave.map Prod.fst).flatten
    · rw [← List.map_flatten] at current
      rcases List.mem_map.1 current with ⟨entry, member, rfl⟩
      rw [recorded.current entry member]
      cases entry.2 with
      | queued body => exact ⟨_, rfl⟩
      | active body => exact ⟨_, rfl⟩
      | done output => exact ⟨[], rfl⟩
    · have unknown : eventsOf key state.events = [] := by
        refine List.filter_eq_nil_iff.2 fun event member same => ?_
        have among := recorded.known event member
        rw [of_decide_eq_true same, recorded.split, List.flatten_append] at among
        exact (List.mem_append.1 among).elim past current
      rw [unknown]
      exact List.nil_prefix

/-- When no wave is left, every job has run exactly once. -/
theorem Recorded.eventsOf_end (recorded : Recorded plan joined state) (ended : state.waves = [])
    (member : key ∈ plan.flatten) : eventsOf key state.events = [.started key, .finished key] := by
  refine recorded.past key ?_
  rwa [recorded.split, ended, List.map_nil, List.append_nil] at member

end ForkJoin
end Execution
end BreadMind
