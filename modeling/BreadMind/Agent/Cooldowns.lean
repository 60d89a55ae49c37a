import BreadMind.Agent.Safety
import BreadMind.Execution.Dict
import BreadMind.Execution.Machine

namespace BreadMind
namespace Agent

open Execution

/-!
# Cooldowns

A call names a target, an action and the length of its cooldown.  The guard
remembers one time for each key, and every hundredth call forgets the times that
are as old as *its own* cooldown.  A key is the target and the action joined by a
colon, so two pairs may share one.

A run keeps, beside the guard, the calls that were allowed and the times that a
clean-up forgot.  The code reads neither.
-/

structure CooldownCall where
  target : String
  action : String
  cooldownMinutes : Int := 10
  now : Int
  deriving DecidableEq

namespace CooldownCall

variable (call : CooldownCall)

def pair : String × String := (call.target, call.action)

def key : String := call.target ++ ":" ++ call.action

/-- `cooldown_minutes * 60`, in microseconds. -/
def threshold : Int := call.cooldownMinutes * 60 * 1000000

def coolsFrom (last : Int) : Bool := decide (call.now - last < call.threshold)

theorem key_of_pair {first second : CooldownCall} (same : first.pair = second.pair) :
    first.key = second.key := by
  have parts := Prod.mk.inj same
  unfold key
  rw [parts.1, parts.2]

theorem coolsFrom_mono {call : CooldownCall} {earlier later : Int} (order : earlier ≤ later)
    (cools : call.coolsFrom earlier = true) : call.coolsFrom later = true := by
  unfold coolsFrom at cools ⊢
  rw [decide_eq_true_iff] at cools ⊢
  omega

end CooldownCall

namespace SafetyGuard

/-- `_cleanup_expired_cooldowns`, with the cooldown of the call that cleans up. -/
def cleanupExpiredCooldowns (guard : SafetyGuard) (call : CooldownCall) : SafetyGuard :=
  { guard with cooldowns := guard.cooldowns.filter fun entry => call.coolsFrom entry.2 }

/-- The guard as a call finds it, cleaned up where the call is a hundredth one. -/
def counted (guard : SafetyGuard) (call : CooldownCall) : SafetyGuard :=
  let counted := { guard with cooldownCheckCount := guard.cooldownCheckCount + 1 }
  if counted.cooldownCheckCount % 100 = 0 then counted.cleanupExpiredCooldowns call else counted

def tooSoon (guard : SafetyGuard) (call : CooldownCall) : Bool :=
  match guard.cooldowns.lookup call.key with
  | some last => call.coolsFrom last
  | none => false

/-- `check_cooldown` with any length of the cooldown. -/
def checkCooldownOf (guard : SafetyGuard) (call : CooldownCall) : Bool × SafetyGuard :=
  let cleaned := guard.counted call
  if cleaned.tooSoon call then (false, cleaned)
  else
    (true, { cleaned with
      cooldowns := (call.key, call.now) :: cleaned.cooldowns.filter fun entry => entry.1 != call.key })

def forgotten (guard : SafetyGuard) (call : CooldownCall) : List (String × Int) :=
  if (guard.cooldownCheckCount + 1) % 100 = 0 then
    guard.cooldowns.filter fun entry => !call.coolsFrom entry.2
  else []

variable {guard : SafetyGuard} {call : CooldownCall}

theorem mem_counted {entry : String × Int}
    (here : entry ∈ (guard.counted call).cooldowns) : entry ∈ guard.cooldowns := by
  unfold counted at here
  dsimp only at here
  split at here
  · exact (List.mem_filter.mp here).1
  · exact here

theorem lookup_counted_none {key : String}
    (absent : (guard.counted call).cooldowns.lookup key = none) :
    guard.cooldowns.lookup key = none ∨
      ∃ last, (key, last) ∈ guard.cooldowns ∧ (key, last) ∈ guard.forgotten call ∧
        call.coolsFrom last = false := by
  cases before : guard.cooldowns.lookup key with
  | none => exact .inl rfl
  | some last =>
    right
    have stored := Dict.mem_of_lookup before
    unfold counted at absent
    unfold forgotten
    dsimp only at absent
    split at absent
    case isTrue hundredth =>
      rw [if_pos hundredth]
      have old : call.coolsFrom last = false := by
        rw [← Bool.not_eq_true]
        intro cools
        have kept : (key, last) ∈ (guard.cooldowns.filter fun entry => call.coolsFrom entry.2) :=
          List.mem_filter.mpr ⟨stored, cools⟩
        have missing := List.lookup_eq_none_iff.mp absent (key, last) kept
        exact bne_iff_ne.mp missing rfl
      refine ⟨last, stored, List.mem_filter.mpr ⟨stored, ?_⟩, old⟩
      rw [old]
      rfl
    case isFalse other =>
      rw [before] at absent
      cases absent

theorem tooSoon_iff : guard.tooSoon call = true <->
      ∃ last, guard.cooldowns.lookup call.key = some last ∧ call.coolsFrom last = true := by
  unfold tooSoon
  cases guard.cooldowns.lookup call.key with
  | none => simp
  | some last => simp

theorem checkCooldownOf_cases (guard : SafetyGuard) (call : CooldownCall) :
    ((guard.counted call).tooSoon call = true ∧
        guard.checkCooldownOf call = (false, guard.counted call)) ∨
      ((guard.counted call).tooSoon call = false ∧ (guard.checkCooldownOf call).1 = true ∧
        (guard.checkCooldownOf call).2.cooldowns =
          (call.key, call.now) :: Dict.pop call.key (guard.counted call).cooldowns) := by
  unfold checkCooldownOf
  dsimp only
  cases (guard.counted call).tooSoon call with
  | false => exact .inr ⟨rfl, rfl, rfl⟩
  | true => exact .inl ⟨rfl, rfl⟩

end SafetyGuard

/-! ## Runs of calls -/

/-- The guard, the calls it has allowed, and the times that clean-ups forgot. -/
structure CooldownRun where
  guard : SafetyGuard
  allowed : List CooldownCall := []
  forgotten : List (String × Int) := []

def CooldownRun.step (run : CooldownRun) (call : CooldownCall) : CooldownRun where
  guard := (run.guard.checkCooldownOf call).2
  allowed := if (run.guard.checkCooldownOf call).1 then call :: run.allowed else run.allowed
  forgotten := run.guard.forgotten call ++ run.forgotten

/-- Calls to a guard with the given rules, from its construction on. -/
def cooldowns (rules : SafetyGuard) : Machine CooldownRun CooldownCall where
  initial := { guard := { rules with cooldowns := [], cooldownCheckCount := 0 } }
  step := CooldownRun.step

def cooldownAnswers (rules : SafetyGuard) (calls : List CooldownCall) : List (CooldownCall × Bool) :=
  (cooldowns rules).outputs (fun run call => [(call, (run.guard.checkCooldownOf call).1)]) calls

def InOrder (calls : List CooldownCall) : Prop :=
  calls.Pairwise fun earlier later => earlier.now ≤ later.now

/-- What may keep a call's answer from its own pair's past: that a clean-up has
forgotten a time under its key that is less than its cooldown ago, or that such a
time under its key is another pair's. -/
structure CooldownRun.Undisturbed (run : CooldownRun) (call : CooldownCall) : Prop where
  remembered : run.guard.cooldowns.lookup call.key = none ->
    ∀ entry ∈ run.forgotten, entry.1 = call.key -> call.coolsFrom entry.2 = false
  unshared : ∀ entry ∈ run.guard.cooldowns, entry.1 = call.key ->
    call.coolsFrom entry.2 = true ->
      ∃ earlier ∈ run.allowed, earlier.pair = call.pair ∧ earlier.now = entry.2

instance (run : CooldownRun) (call : CooldownCall) : Decidable (run.Undisturbed call) :=
  decidable_of_iff
    ((run.guard.cooldowns.lookup call.key = none ->
        ∀ entry ∈ run.forgotten, entry.1 = call.key -> call.coolsFrom entry.2 = false) ∧
      (∀ entry ∈ run.guard.cooldowns, entry.1 = call.key -> call.coolsFrom entry.2 = true ->
          ∃ earlier ∈ run.allowed, earlier.pair = call.pair ∧
            earlier.now = entry.2))
    ⟨fun parts => ⟨parts.1, parts.2⟩, fun parts => ⟨parts.remembered, parts.unshared⟩⟩

namespace CooldownRun

/-- Under a key, no allowed call is younger than what the guard remembers, or than
what it has forgotten. -/
structure Recorded (run : CooldownRun) : Prop where
  stored : ∀ entry ∈ run.guard.cooldowns,
    ∀ call ∈ run.allowed, call.key = entry.1 -> call.now ≤ entry.2
  missing : ∀ call ∈ run.allowed, run.guard.cooldowns.lookup call.key = none ->
    ∃ last, (call.key, last) ∈ run.forgotten ∧ call.now ≤ last

variable {run : CooldownRun} {call : CooldownCall}

theorem Recorded.gone (recorded : run.Recorded) {earlier : CooldownCall}
    (here : earlier ∈ run.allowed)
    (absent : (run.guard.counted call).cooldowns.lookup earlier.key = none) : ∃ last,
      (earlier.key, last) ∈ run.guard.forgotten call ++ run.forgotten ∧ earlier.now ≤ last := by
  rcases SafetyGuard.lookup_counted_none absent with unknown | ⟨last, stored, dropped, _⟩
  · rcases recorded.missing earlier here unknown with ⟨last, member, younger⟩
    exact ⟨last, List.mem_append_right _ member, younger⟩
  · exact ⟨last, List.mem_append_left _ dropped, recorded.stored _ stored earlier here rfl⟩

theorem Recorded.step (recorded : run.Recorded)
    (before : ∀ earlier ∈ run.allowed, earlier.now ≤ call.now) : (run.step call).Recorded := by
  rcases run.guard.checkCooldownOf_cases call with ⟨_, result⟩ | ⟨_, answer, result⟩
  · have same : run.step call =
        { guard := run.guard.counted call, allowed := run.allowed,
          forgotten := run.guard.forgotten call ++ run.forgotten } := by
      unfold CooldownRun.step
      rw [result]
      rfl
    rw [same]
    refine ⟨?_, fun earlier here absent => recorded.gone here absent⟩
    intro entry member
    exact recorded.stored entry (SafetyGuard.mem_counted member)
  · have allowed : (run.step call).allowed = call :: run.allowed := by
      unfold CooldownRun.step
      rw [if_pos answer]
    refine ⟨?_, ?_⟩
    · intro entry member earlier here same
      rw [show (run.step call).guard.cooldowns = _ from result] at member
      rw [allowed] at here
      rcases List.mem_cons.mp member with rfl | member
      · rcases List.mem_cons.mp here with rfl | here
        · exact le_refl _
        · exact before earlier here
      · rcases List.mem_filter.mp member with ⟨member, other⟩
        rcases List.mem_cons.mp here with rfl | here
        · rw [same] at other
          simp at other
        · exact recorded.stored entry (SafetyGuard.mem_counted member) earlier here same
    · intro earlier here absent
      rw [show (run.step call).guard.cooldowns = _ from result, List.lookup_cons] at absent
      rw [allowed] at here
      by_cases same : earlier.key = call.key
      · rw [same, beq_self_eq_true] at absent
        cases absent
      · rw [beq_false_of_ne same] at absent
        dsimp only at absent
        rw [Dict.lookup_pop_of_ne _ same] at absent
        rcases List.mem_cons.mp here with rfl | here
        · exact absurd rfl same
        · exact recorded.gone here absent

def recently (allowed : List CooldownCall) (call : CooldownCall) : Bool :=
  allowed.any fun earlier => decide (earlier.pair = call.pair) && call.coolsFrom earlier.now

theorem recently_iff {allowed : List CooldownCall} :
    recently allowed call = true <-> ∃ earlier ∈ allowed,
      earlier.pair = call.pair ∧ call.coolsFrom earlier.now = true := by
  simp [recently]

theorem Recorded.answer (recorded : run.Recorded) (undisturbed : run.Undisturbed call) :
    (run.guard.checkCooldownOf call).1 = !recently run.allowed call := by
  rcases run.guard.checkCooldownOf_cases call with ⟨soon, result⟩ | ⟨soon, answer, _⟩
  · rw [result]
    symm
    rw [Bool.not_eq_false', recently_iff]
    rcases SafetyGuard.tooSoon_iff.mp soon with ⟨last, found, cools⟩
    have stored := SafetyGuard.mem_counted (Dict.mem_of_lookup found)
    rcases undisturbed.unshared _ stored rfl cools with ⟨earlier, here, same, time⟩
    exact ⟨earlier, here, same, time ▸ cools⟩
  · rw [answer]
    symm
    rw [Bool.not_eq_true', ← Bool.not_eq_true, recently_iff]
    intro recent
    rcases recent with ⟨earlier, here, same, cools⟩
    have key := CooldownCall.key_of_pair same
    cases found : (run.guard.counted call).cooldowns.lookup call.key with
    | some last =>
      have stored := SafetyGuard.mem_counted (Dict.mem_of_lookup found)
      have later := recorded.stored _ stored earlier here key
      have refused := SafetyGuard.tooSoon_iff.mpr ⟨last, found, CooldownCall.coolsFrom_mono later cools⟩
      rw [soon] at refused
      cases refused
    | none =>
      rcases SafetyGuard.lookup_counted_none found with unknown | ⟨last, stored, _, old⟩
      · rcases recorded.missing earlier here (key ▸ unknown) with ⟨last, gone, later⟩
        have old := undisturbed.remembered unknown _ gone key
        rw [CooldownCall.coolsFrom_mono later cools] at old
        cases old
      · have later := recorded.stored _ stored earlier here key
        rw [CooldownCall.coolsFrom_mono later cools] at old
        cases old

theorem recently_filter (allowed : List CooldownCall) (call : CooldownCall) :
    recently (allowed.filter fun earlier => decide (earlier.pair = call.pair)) call =
      recently allowed call := by
  unfold recently
  rw [List.any_filter]
  refine congrArg _ (funext fun earlier => ?_)
  cases decide (earlier.pair = call.pair) <;> rfl

end CooldownRun

/-! ## What the calls of one pair should be answered -/

/-- Cooldowns as they are meant: the past of the pair alone decides. -/
def spacing : Machine (List CooldownCall) CooldownCall where
  initial := []
  step := fun allowed call =>
    if CooldownRun.recently allowed call then allowed else call :: allowed

def spacedAnswers (calls : List CooldownCall) : List (CooldownCall × Bool) :=
  spacing.outputs (fun allowed call => [(call, !CooldownRun.recently allowed call)]) calls

def callsFor (pair : String × String) (calls : List CooldownCall) : List CooldownCall :=
  calls.filter fun call => decide (call.pair = pair)

def answersFor (pair : String × String) (answers : List (CooldownCall × Bool)) :
    List (CooldownCall × Bool) :=
  answers.filter fun answer => decide (answer.1.pair = pair)

section Runs

variable {rules : SafetyGuard} {calls : List CooldownCall}

theorem inOrder_append_singleton {call : CooldownCall} (ordered : InOrder (calls ++ [call])) :
    InOrder calls ∧ ∀ earlier ∈ calls, earlier.now ≤ call.now := by
  have parts := List.pairwise_append.mp ordered
  exact ⟨parts.1, fun earlier here => parts.2.2 earlier here call (List.mem_singleton.mpr rfl)⟩

theorem cooldownAnswers_append_singleton (call : CooldownCall) :
    cooldownAnswers rules (calls ++ [call]) = cooldownAnswers rules calls ++
      [(call, (((cooldowns rules).after calls).guard.checkCooldownOf call).1)] :=
  Machine.outputs_append_singleton _ _ _ _

theorem allowed_after_append_singleton (call : CooldownCall) :
    ((cooldowns rules).after (calls ++ [call])).allowed =
      if (((cooldowns rules).after calls).guard.checkCooldownOf call).1 then
        call :: ((cooldowns rules).after calls).allowed
      else ((cooldowns rules).after calls).allowed := by
  rw [Machine.after_append_singleton]
  rfl

theorem mem_allowed {call : CooldownCall} (here : call ∈ ((cooldowns rules).after calls).allowed) :
    call ∈ calls := by
  induction calls using List.reverseRecOn with
  | nil => cases here
  | append_singleton earlier last ih =>
    rw [allowed_after_append_singleton] at here
    split at here
    · rcases List.mem_cons.mp here with rfl | here
      · exact List.mem_append_right _ (List.mem_singleton.mpr rfl)
      · exact List.mem_append_left _ (ih here)
    · exact List.mem_append_left _ (ih here)

theorem allowed_of_answer {answer : CooldownCall × Bool}
    (here : answer ∈ cooldownAnswers rules calls) (yes : answer.2 = true) :
    answer.1 ∈ ((cooldowns rules).after calls).allowed := by
  induction calls using List.reverseRecOn with
  | nil => cases here
  | append_singleton earlier call ih =>
    rw [cooldownAnswers_append_singleton] at here
    rw [allowed_after_append_singleton]
    rcases List.mem_append.mp here with past | last
    · split
      · exact List.mem_cons_of_mem _ (ih past)
      · exact ih past
    · cases List.mem_singleton.mp last
      rw [if_pos yes]
      exact List.mem_cons_self

theorem recorded_after (ordered : InOrder calls) : ((cooldowns rules).after calls).Recorded := by
  induction calls using List.reverseRecOn with
  | nil => exact ⟨fun _ member => (nomatch member), fun _ member => (nomatch member)⟩
  | append_singleton earlier call ih =>
    have parts := inOrder_append_singleton ordered
    rw [Machine.after_append_singleton]
    exact (ih parts.1).step fun past here => parts.2 past (mem_allowed here)

/-- Induction on the calls: throughout an undisturbed run each pair is answered as
if its calls were the only ones. -/
theorem answers_spaced (pair : String × String) (ordered : InOrder calls)
    (undisturbed : (cooldowns rules).EveryStep CooldownRun.Undisturbed calls) :
    (callsFor pair ((cooldowns rules).after calls).allowed = spacing.after (callsFor pair calls)) ∧
      answersFor pair (cooldownAnswers rules calls) = spacedAnswers (callsFor pair calls) := by
  induction calls using List.reverseRecOn with
  | nil => exact ⟨rfl, rfl⟩
  | append_singleton earlier call ih =>
    have parts := inOrder_append_singleton ordered
    have steps := (Machine.everyStep_append_singleton _ _ earlier call).mp undisturbed
    rcases ih parts.1 steps.1 with ⟨states, answers⟩
    have answer := (@recorded_after rules _ parts.1).answer steps.2
    rw [allowed_after_append_singleton, cooldownAnswers_append_singleton, answer]
    unfold callsFor at states answers ⊢
    unfold answersFor at answers ⊢
    by_cases own : call.pair = pair
    · subst own
      have recent : CooldownRun.recently (spacing.after
          (earlier.filter fun past => decide (past.pair = call.pair))) call =
            CooldownRun.recently ((cooldowns rules).after earlier).allowed call := by
        rw [← states, CooldownRun.recently_filter]
      have last : [call].filter (fun past => decide (past.pair = call.pair)) = [call] := by simp
      rw [List.filter_append, last, List.filter_append, answers]
      unfold spacedAnswers
      rw [Machine.after_append_singleton, Machine.outputs_append_singleton, recent]
      refine ⟨?_, by simp⟩
      change _ = if CooldownRun.recently _ call then _ else _
      rw [recent, ← states]
      cases CooldownRun.recently ((cooldowns rules).after earlier).allowed call with
      | true => rfl
      | false => simp
    · have last : [call].filter (fun past => decide (past.pair = pair)) = [] := by simp [own]
      rw [List.filter_append, last, List.append_nil, List.filter_append, answers]
      refine ⟨?_, by simp [own]⟩
      rw [← states]
      cases CooldownRun.recently ((cooldowns rules).after earlier).allowed call with
      | true => rfl
      | false => simp [own]

theorem answers_apart (ordered : InOrder calls)
    (undisturbed : (cooldowns rules).EveryStep CooldownRun.Undisturbed calls) :
    (cooldownAnswers rules calls).Pairwise fun earlier later =>
      earlier.2 = true -> later.2 = true -> earlier.1.pair = later.1.pair ->
        later.1.threshold ≤ later.1.now - earlier.1.now := by
  induction calls using List.reverseRecOn with
  | nil => exact List.Pairwise.nil
  | append_singleton past call ih =>
    have parts := inOrder_append_singleton ordered
    have steps := (Machine.everyStep_append_singleton _ _ past call).mp undisturbed
    rw [cooldownAnswers_append_singleton, List.pairwise_append]
    refine ⟨ih parts.1 steps.1, List.pairwise_singleton _ _, ?_⟩
    intro earlier here later last allowed answered same
    cases List.mem_singleton.mp last
    dsimp only at answered same ⊢
    rw [(recorded_after parts.1).answer steps.2, Bool.not_eq_true', ← Bool.not_eq_true,
      CooldownRun.recently_iff] at answered
    by_contra close
    refine answered ⟨earlier.1, allowed_of_answer here allowed, same, ?_⟩
    exact decide_eq_true (not_le.mp close)

end Runs

/-- Over times that do not run backwards, as long as neither a clean-up nor another
pair's key disturbs a call, allowed calls of one pair are its cooldown apart, and its
answers depend on its own calls alone. -/
theorem cooldowns_hold (rules : SafetyGuard) (calls : List CooldownCall) (ordered : InOrder calls)
    (undisturbed : (cooldowns rules).EveryStep CooldownRun.Undisturbed calls) :
    ((cooldownAnswers rules calls).Pairwise fun earlier later =>
      earlier.2 = true -> later.2 = true -> earlier.1.pair = later.1.pair ->
        earlier.1.cooldownMinutes = later.1.cooldownMinutes ->
          earlier.1.threshold ≤ later.1.now - earlier.1.now) ∧
    ∀ pair others, InOrder others ->
      (cooldowns rules).EveryStep CooldownRun.Undisturbed others ->
        callsFor pair others = callsFor pair calls ->
          answersFor pair (cooldownAnswers rules others) =
            answersFor pair (cooldownAnswers rules calls) := by
  constructor
  · refine (answers_apart ordered undisturbed).imp ?_
    intro earlier later apart allowed answered same minutes
    have enough := apart allowed answered same
    unfold CooldownCall.threshold at enough ⊢
    rw [minutes]
    exact enough
  · intro pair others otherOrder otherwise same
    rw [(answers_spaced pair otherOrder otherwise).2, (answers_spaced pair ordered undisturbed).2, same]

def restarts : List CooldownCall :=
  [{ target := "db", action := "restart", now := 0 },
    { target := "db", action := "restart", now := 300000000 },
    { target := "db", action := "restart", now := 600000000 }]

theorem cooldowns_hold_restarts : ((cooldownAnswers {} restarts).Pairwise fun earlier later =>
      earlier.2 = true -> later.2 = true -> earlier.1.pair = later.1.pair ->
        earlier.1.cooldownMinutes = later.1.cooldownMinutes ->
          earlier.1.threshold ≤ later.1.now - earlier.1.now) ∧
    ∀ pair others, InOrder others ->
      (cooldowns {}).EveryStep CooldownRun.Undisturbed others ->
        callsFor pair others = callsFor pair restarts ->
          answersFor pair (cooldownAnswers {} others) =
            answersFor pair (cooldownAnswers {} restarts) := by
  refine cooldowns_hold {} restarts ?_ ?_
  · unfold InOrder
    decide +kernel
  · rw [Machine.everyStep_iff_stepsFrom]
    exact ⟨by decide +kernel, by decide +kernel, by decide +kernel, trivial⟩

/-- A hundredth call, whose cooldown is one minute, comes between two calls whose
cooldown is ten minutes. -/
def hundredthBetween : List CooldownCall :=
  { target := "db", action := "restart", now := 0 } ::
    List.replicate 98 { target := "web", action := "reload", cooldownMinutes := 1, now := 0 } ++
    [{ target := "web", action := "reload", cooldownMinutes := 1, now := 120000000 },
      { target := "db", action := "restart", now := 180000000 }]

def sharedKey : List CooldownCall :=
  [{ target := "db:1", action := "restart", now := 0 }, { target := "db", action := "1:restart", now := 0 }]

/-- Without the condition neither part holds: a restart is allowed three minutes
after the one before it, and a call is refused for another pair's. -/
theorem cooldowns_disturbed : (InOrder hundredthBetween ∧
      Not ((cooldownAnswers {} hundredthBetween).Pairwise fun earlier later =>
        earlier.2 = true -> later.2 = true -> earlier.1.pair = later.1.pair ->
          earlier.1.cooldownMinutes = later.1.cooldownMinutes ->
            earlier.1.threshold ≤ later.1.now - earlier.1.now)) ∧
    (InOrder sharedKey ∧ InOrder (callsFor ("db", "1:restart") sharedKey) ∧
      callsFor ("db", "1:restart") (callsFor ("db", "1:restart") sharedKey) =
        callsFor ("db", "1:restart") sharedKey ∧
      answersFor ("db", "1:restart") (cooldownAnswers {} (callsFor ("db", "1:restart") sharedKey)) ≠
        answersFor ("db", "1:restart") (cooldownAnswers {} sharedKey)) := by
  unfold InOrder
  decide +kernel

end Agent
end BreadMind
