import Mathlib.Data.List.Basic
import Mathlib.Data.List.Forall2

namespace BreadMind
namespace Execution

universe u v w

/-!
# Computations which may raise

Inversion of successful runs: a bind that returned had a first part which
returned, and a loop of checks that returned passed every check.
-/

variable {Failure : Type u} {Value : Type v} {Result : Type v}

theorem bind_eq_ok {first : Except Failure Value} {next : Value -> Except Failure Result}
    {result : Result} : (first >>= next) = .ok result <-> ∃ value,
      first = .ok value ∧ next value = .ok result := by
  cases first with
  | error failure =>
    constructor
    · intro impossible; cases impossible
    · rintro ⟨value, impossible, _⟩; cases impossible
  | ok value =>
    constructor
    · intro returned; exact ⟨value, rfl, returned⟩
    · rintro ⟨same, equal, returned⟩; cases equal; exact returned

theorem mapError_eq_ok {Other : Type u} {change : Failure -> Other} {computed : Except Failure Value}
    {value : Value} : computed.mapError change = .ok value <-> computed = .ok value := by
  cases computed with
  | error failure => exact iff_of_false (fun impossible => nomatch impossible) fun impossible => nomatch impossible
  | ok returned => exact ⟨fun same => congrArg _ (Except.ok.inj same), fun same => congrArg _ (Except.ok.inj same)⟩

theorem mapError_eq_error {Other : Type u} {change : Failure -> Other}
    {computed : Except Failure Value} {other : Other} : computed.mapError change = .error other <->
      ∃ failure, computed = .error failure ∧ change failure = other := by
  cases computed with
  | error failure =>
    constructor
    · exact fun same => ⟨failure, rfl, Except.error.inj same⟩
    · rintro ⟨_, ⟨⟩, rfl⟩
      rfl
  | ok returned =>
    refine iff_of_false (fun impossible => nomatch impossible) ?_
    rintro ⟨_, impossible, _⟩
    cases impossible

theorem forM_eq_ok {Item : Type w} (check : Item -> Except Failure PUnit) (items : List Item) :
    forM items check = .ok ⟨⟩ <-> ∀ item ∈ items, check item = .ok ⟨⟩ := by
  induction items with
  | nil =>
    constructor
    · intro _ item member; cases member
    · intro _; rfl
  | cons head tail ih =>
    rw [List.forM_cons, bind_eq_ok]
    constructor
    · rintro ⟨_, headOk, tailOk⟩ item member
      rcases List.mem_cons.mp member with same | later
      · exact same ▸ headOk
      · exact ih.mp tailOk item later
    · intro every
      exact ⟨⟨⟩, every head List.mem_cons_self,
        ih.mpr (fun item member => every item (List.mem_cons_of_mem _ member))⟩

theorem forM_eq_error {Item : Type w} {check : Item -> Except Failure PUnit} {items : List Item}
    {failure : Failure} (raised : forM items check = .error failure) :
    ∃ item ∈ items, check item = .error failure := by
  induction items with
  | nil => cases raised
  | cons head tail ih =>
    rw [List.forM_cons] at raised
    cases first : check head with
    | error other =>
      rw [first] at raised
      cases raised
      exact ⟨head, List.mem_cons_self, first⟩
    | ok _ =>
      rw [first] at raised
      rcases ih raised with ⟨item, member, there⟩
      exact ⟨item, List.mem_cons_of_mem _ member, there⟩

theorem mapM_eq_ok_iff {Item : Type w} {read : Item -> Except Failure Value} {items : List Item}
    {values : List Value} : items.mapM read = .ok values <->
      List.Forall₂ (fun item value => read item = .ok value) items values := by
  induction items generalizing values with
  | nil =>
    rw [List.forall₂_nil_left_iff, List.mapM_nil]
    constructor
    · rintro ⟨⟩
      rfl
    · rintro rfl
      rfl
  | cons head tail ih =>
    rw [List.mapM_cons, bind_eq_ok, List.forall₂_cons_left_iff]
    constructor
    · rintro ⟨value, first, rest⟩
      rcases bind_eq_ok.mp rest with ⟨others, later, built⟩
      cases built
      exact ⟨value, others, first, ih.mp later, rfl⟩
    · rintro ⟨value, others, first, later, rfl⟩
      exact ⟨value, first, bind_eq_ok.mpr ⟨others, ih.mpr later, rfl⟩⟩

theorem mapM_eq_ok {Item : Type w} {read : Item -> Except Failure Value} {items : List Item}
    {values : List Value} (returned : items.mapM read = .ok values) :
    ∀ item ∈ items, ∃ value, read item = .ok value := by
  induction items generalizing values with
  | nil =>
    intro item member
    cases member
  | cons head tail ih =>
    rw [List.mapM_cons] at returned
    rcases bind_eq_ok.mp returned with ⟨value, first, rest⟩
    rcases bind_eq_ok.mp rest with ⟨others, later, _⟩
    intro item member
    rcases List.mem_cons.mp member with same | further
    · exact ⟨value, same ▸ first⟩
    · exact ih later item further

theorem foldlM_ok_invariant {Item : Type w} {round : Value -> Item -> Except Failure Value}
    (invariant : Value -> Prop)
    (kept : ∀ value item next, invariant value -> round value item = .ok next -> invariant next)
    {items : List Item} {start result : Value} (initially : invariant start)
    (ran : items.foldlM round start = .ok result) : invariant result := by
  induction items generalizing start with
  | nil =>
    cases ran
    exact initially
  | cons item rest ih =>
    rw [List.foldlM_cons] at ran
    rcases bind_eq_ok.mp ran with ⟨next, first, later⟩
    exact ih (kept start item next initially first) later

/-! ## What can be raised -/

/-- Whatever is raised is of the allowed kind. -/
def FailsOnly (allowed : Failure -> Prop) (result : Except Failure Value) : Prop :=
  ∀ failure, result = .error failure -> allowed failure

section FailsOnly

variable {allowed : Failure -> Prop}

theorem failsOnly_ok (value : Value) : FailsOnly allowed (.ok value : Except Failure Value) := by
  intro failure impossible
  cases impossible

theorem failsOnly_error {failure : Failure} :
    FailsOnly allowed (.error failure : Except Failure Value) <-> allowed failure := by
  constructor
  · exact fun fails => fails failure rfl
  · rintro allows other ⟨⟩
    exact allows

theorem failsOnly_bind {first : Except Failure Value} {next : Value -> Except Failure Result} :
    FailsOnly allowed (first >>= next) <-> FailsOnly allowed first ∧
      ∀ value, first = .ok value -> FailsOnly allowed (next value) := by
  cases first with
  | error failure =>
    refine ⟨fun fails => ⟨failsOnly_error.mpr (fails failure rfl), ?_⟩, fun fails => ?_⟩
    · intro value impossible
      cases impossible
    · exact failsOnly_error.mpr (failsOnly_error.mp fails.1)
  | ok value =>
    constructor
    · intro fails
      refine ⟨failsOnly_ok value, ?_⟩
      rintro other ⟨⟩
      exact fails
    · exact fun fails => fails.2 value rfl

/-- Every item behind none but passing ones is good. -/
def GoodUntil {Item : Type w} (passes good : Item -> Prop) (items : List Item) : Prop :=
  ∀ before item after, items = before ++ item :: after ->
    (∀ earlier ∈ before, passes earlier) -> good item

theorem GoodUntil.congr {Item : Type w} {passes good otherPasses otherGood : Item -> Prop}
    (samePasses : ∀ item, passes item <-> otherPasses item)
    (sameGood : ∀ item, good item <-> otherGood item) (items : List Item) :
    GoodUntil passes good items <-> GoodUntil otherPasses otherGood items := by
  rw [funext fun item => propext (samePasses item), funext fun item => propext (sameGood item)]

/-- A loop whose rounds pass by their items alone returns when all items pass. -/
theorem exists_foldlM_ok {Item : Type w} {round : Value -> Item -> Except Failure Value}
    {passes : Item -> Prop}
    (goes : ∀ value item, (∃ next, round value item = .ok next) <-> passes item)
    (items : List Item) (start : Value) : (∃ result, items.foldlM round start = .ok result) <->
      ∀ item ∈ items, passes item := by
  induction items generalizing start with
  | nil => exact iff_of_true ⟨start, rfl⟩ (List.forall_mem_nil _)
  | cons head tail ih =>
    rw [List.forall_mem_cons, ← goes start head]
    constructor
    · rintro ⟨result, ran⟩
      rw [List.foldlM_cons] at ran
      rcases bind_eq_ok.mp ran with ⟨next, first, later⟩
      exact ⟨⟨next, first⟩, (ih next).mp ⟨result, later⟩⟩
    · rintro ⟨⟨next, first⟩, every⟩
      rcases (ih next).mpr every with ⟨result, later⟩
      exact ⟨result, bind_eq_ok.mpr ⟨next, first, later⟩⟩

/-- A loop whose rounds pass or fail by their items alone: the first item that
does not pass tells what is raised. -/
theorem failsOnly_foldlM {Item : Type w} {round : Value -> Item -> Except Failure Value}
    (passes good : Item -> Prop)
    (goes : ∀ value item, (∃ next, round value item = .ok next) <-> passes item)
    (fails : ∀ value item, FailsOnly allowed (round value item) <-> good item)
    (items : List Item) (start : Value) :
    FailsOnly allowed (items.foldlM round start) <-> GoodUntil passes good items := by
  induction items generalizing start with
  | nil =>
    refine iff_of_true (failsOnly_ok start) ?_
    intro before item after split
    exact (List.append_ne_nil_of_right_ne_nil before (List.cons_ne_nil item after) split.symm).elim
  | cons head tail ih =>
    rw [List.foldlM_cons, failsOnly_bind, fails]
    constructor
    · rintro ⟨here, later⟩ before item after split every
      cases before with
      | nil =>
        cases split
        exact here
      | cons first rest =>
        rcases List.cons.inj split with ⟨rfl, same⟩
        rcases (goes start head).mpr (every head List.mem_cons_self) with ⟨next, ran⟩
        refine (ih next).mp (later next ran) rest item after same ?_
        exact fun earlier member => every earlier (List.mem_cons_of_mem head member)
    · intro each
      refine ⟨each [] head tail rfl (List.forall_mem_nil _), fun next ran => ?_⟩
      refine (ih next).mpr fun before item after split every => ?_
      refine each (head :: before) item after (congrArg (List.cons head) split) ?_
      exact List.forall_mem_cons.mpr ⟨(goes start head).mp ⟨next, ran⟩, every⟩

theorem failsOnly_forM {Item : Type w} (check : Item -> Except Failure PUnit) (items : List Item) :
    FailsOnly allowed (forM items check) <->
      GoodUntil (fun item => check item = .ok ⟨⟩) (fun item => FailsOnly allowed (check item))
        items := by
  have loop : forM items check = items.foldlM (fun _ item => check item) ⟨⟩ := by
    induction items with
    | nil => rfl
    | cons head tail ih =>
      rw [List.forM_cons, List.foldlM_cons]
      exact congrArg _ (funext fun _ => ih)
  rw [loop]
  refine failsOnly_foldlM (fun item => check item = .ok ⟨⟩)
    (fun item => FailsOnly allowed (check item)) (fun _ item => ?_) (fun _ _ => Iff.rfl) items ⟨⟩
  constructor
  · rintro ⟨_, passed⟩
    exact passed
  · exact fun passed => ⟨⟨⟩, passed⟩

theorem failsOnly_mapM {Item : Type w} {read : Item -> Except Failure Value}
    (never : ∀ item failure, read item = .error failure -> Not (allowed failure))
    (items : List Item) : FailsOnly allowed (items.mapM read) <->
      ∀ item ∈ items, ∃ value, read item = .ok value := by
  induction items with
  | nil => exact iff_of_true (failsOnly_ok []) (List.forall_mem_nil _)
  | cons head tail ih =>
    rw [List.mapM_cons, failsOnly_bind, List.forall_mem_cons]
    cases first : read head with
    | error failure =>
      refine iff_of_false (fun fails => ?_) fun every => ?_
      · exact never head failure first (failsOnly_error.mp fails.1)
      · rcases every.1 with ⟨value, impossible⟩
        cases impossible
    | ok value =>
      constructor
      · intro fails
        have later := (failsOnly_bind.mp (fails.2 value rfl)).1
        exact ⟨⟨value, rfl⟩, ih.mp later⟩
      · rintro ⟨_, every⟩
        refine ⟨failsOnly_ok value, ?_⟩
        rintro other ⟨⟩
        refine failsOnly_bind.mpr ⟨ih.mpr every, ?_⟩
        exact fun _ _ => failsOnly_ok _

end FailsOnly

end Execution
end BreadMind
