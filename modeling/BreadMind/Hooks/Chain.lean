import BreadMind.Execution.Checks
import BreadMind.Execution.Machine
import BreadMind.Execution.Priorities
import BreadMind.Hooks.Conditions

namespace BreadMind
namespace Hooks

open Execution

/-!
# The hook chain

The hooks of an event run one after the other, the highest priority first.  What
a hook modifies, the conditions of the later ones already see.  A hook may end
the chain where the event permits it; nothing that a condition or a hook raises
is caught.
-/

def maxRerouteDepth : Nat := 3

structure HookHandler where
  name : String
  priority : Int := 0
  ifCondition : Option HookCondition := none
  run : HookPayload -> Except PyError HookDecision

structure HookChain where
  event : HookEvent
  handlers : List HookHandler := []

def HookDecision.target (decision : HookDecision) : Json :=
  if decision.rerouteTarget.truthy then decision.rerouteTarget else .str ""

/-- `target in payload.visited`; a list and a dictionary have no hash. -/
def wasVisited (payload : HookPayload) : Json -> Except PyError Bool
  | .str target => .ok (payload.visited.contains target)
  | .arr _ => .error (.typeError "unhashable type: 'list'")
  | .obj _ => .error (.typeError "unhashable type: 'dict'")
  | _ => .ok false

def goesOn (policy : EventPolicy) (payload : HookPayload) (decision : HookDecision) :
    Except PyError Bool :=
  match decision.kind with
  | .proceed | .modify => .ok true
  | .block => .ok !policy.blockable
  | .reply => .ok !policy.replyAllowed
  | .reroute =>
    if !policy.rerouteAllowed || maxRerouteDepth ≤ payload.depth then .ok true
    else wasVisited payload decision.target

/-- What the chain has gathered: the patch, the contexts, and the payload so far. -/
structure ChainState where
  patch : Dict String Json := []
  contexts : List Json := []
  payload : HookPayload

variable (policy : EventPolicy)

def ChainState.take (state : ChainState) (decision : HookDecision) : ChainState :=
  let patch := if decision.kind = .modify ∧ policy.mutable = true then decision.patch else []
  { patch := overlay state.patch patch
    contexts :=
      if decision.context.truthy then state.contexts ++ [decision.context] else state.contexts
    payload := { state.payload with data := overlay state.payload.data patch } }

def contextText : Json -> Except PyError String
  | .str text => .ok text
  | _ => .error (.typeError "sequence item: expected str instance")

def joinContexts (contexts : List Json) : Except PyError String := do
  let texts <- contexts.mapM contextText
  pure ("\n".intercalate texts)

/-- The decision of a chain that no hook has ended. -/
def finalDecision (patch : Dict String Json) (context : String) : HookDecision :=
  if patch.isEmpty then { context := .str context }
  else { kind := .modify, patch := patch, context := .str context }

namespace HookChain

/-- The loop of `run`, over the hooks that are left. -/
def runFrom (isWord : Char -> Bool) (policy : EventPolicy) :
    List HookHandler -> ChainState -> Except PyError (HookDecision × HookPayload)
  | [], state => do
    let context <- joinContexts state.contexts
    pure (finalDecision state.patch context, state.payload)
  | handler :: rest, state => do
    if (<- matchesCondition isWord handler.ifCondition state.payload) then
      let decision <- handler.run state.payload
      if (<- goesOn policy state.payload decision) then
        runFrom isWord policy rest (state.take policy decision)
      else pure (decision, state.payload)
    else runFrom isWord policy rest state

def sorted (chain : HookChain) : List HookHandler :=
  byPriority HookHandler.priority chain.handlers

def run (isWord : Char -> Bool) (chain : HookChain) (payload : HookPayload) :
    Except PyError (HookDecision × HookPayload) :=
  runFrom isWord chain.event.policy chain.sorted { payload := payload }

end HookChain

variable (isWord : Char -> Bool)

/-- `EventBus.run_hook_chain`, with the hooks registered under the key of the
event; a key that is no event's runs as a notification. -/
def runHookChain (registered : Dict String (List HookHandler)) (key : String)
    (payload : HookPayload) : Except PyError HookDecision :=
  match (registered.lookup key).getD [] with
  | [] => .ok {}
  | first :: rest => do
    let event := (HookEvent.ofValue key).getD .notification
    let result <- HookChain.run isWord { event := event, handlers := first :: rest } payload
    pure result.1

/-- A hook that was consulted, with its decision unless its condition did not hold. -/
structure Consulted where
  handler : HookHandler
  decision : Option HookDecision

/-- What a consulted hook adds to the patch, where the event permits it. -/
def Consulted.patch (consulted : Consulted) : Dict String Json :=
  match consulted.decision with
  | some decision => if decision.kind = .modify ∧ policy.mutable = true then decision.patch else []
  | none => []

def Consulted.contexts (consulted : Consulted) : List Json :=
  match consulted.decision with
  | some decision => if decision.context.truthy then [decision.context] else []
  | none => []

/-- A BLOCK or a REPLY that the event permits, or a REROUTE that it permits below
the depth of three to a target not visited. -/
def Ends (payload : HookPayload) (decision : HookDecision) : Prop :=
  (decision.kind = .block ∧ policy.blockable = true) ∨
    (decision.kind = .reply ∧ policy.replyAllowed = true) ∨
      (decision.kind = .reroute ∧ policy.rerouteAllowed = true ∧ payload.depth < maxRerouteDepth ∧
        ∀ target ∈ payload.visited, decision.target ≠ .str target)

section Specification

variable (isWord : Char -> Bool) (policy : EventPolicy) (payload : HookPayload)

variable (past : List Consulted)

/-- The payload after the consulted hooks: the initial data under all their patches. -/
def seen : HookPayload :=
  { payload with data := overlay payload.data (past.flatMap (Consulted.patch policy)) }

/-- A hook is consulted on what it sees: its condition does not hold, or it does
and the hook's decision does not end the chain. -/
def Fits (current : HookPayload) (consulted : Consulted) : Prop :=
  match consulted.decision with
  | none => matchesCondition isWord consulted.handler.ifCondition current = .ok false
  | some decision =>
    matchesCondition isWord consulted.handler.ifCondition current = .ok true ∧
      consulted.handler.run current = .ok decision ∧ Not (Ends policy current decision)

def Walk : Prop :=
  ∀ before consulted after, past = before ++ consulted :: after ->
    Fits isWord policy (seen policy payload before) consulted

/-- The result where a walk has come to the hooks that are left: the decision of
the first of them, if it ends the chain, or the aggregate once none are left. -/
def Outcome : List HookHandler -> HookDecision -> HookPayload -> Prop
  | [], decision, final => final = seen policy payload past ∧
      ∃ texts, past.flatMap Consulted.contexts = texts.map Json.str ∧
        decision = finalDecision (overlay [] (past.flatMap (Consulted.patch policy)))
          ("\n".intercalate texts)
  | handler :: _, decision, final => final = seen policy payload past ∧
      matchesCondition isWord handler.ifCondition (seen policy payload past) = .ok true ∧
        handler.run (seen policy payload past) = .ok decision ∧
          Ends policy (seen policy payload past) decision

end Specification

/-- The hooks are consulted in stable descending priority up to the first one
that ends the chain. -/
def Settled (chain : HookChain) (payload : HookPayload)
    (decision : HookDecision) (final : HookPayload) : Prop :=
  ∃ ordered past later,
    InPriorityOrder HookHandler.priority chain.handlers ordered ∧
      ordered = past.map Consulted.handler ++ later ∧
        Walk isWord chain.event.policy payload past ∧
          Outcome isWord chain.event.policy payload past later decision final

/-! ## When it does -/

/-- A REROUTE which the event permits below the depth of three, to a target that is
a list or a dictionary. -/
def Unhashable (payload : HookPayload) (decision : HookDecision) : Prop :=
  decision.kind = .reroute ∧ policy.rerouteAllowed = true ∧ payload.depth < maxRerouteDepth ∧
    ((∃ items, decision.target = .arr items) ∨ ∃ fields, decision.target = .obj fields)

section Safety

variable (isWord : Char -> Bool) (policy : EventPolicy) (payload : HookPayload)

/-- What the next hook must not do to the chain, after a walk; with no hook left,
what the contexts must not be. -/
def Safe (past : List Consulted) : List HookHandler -> Prop
  | [] => ∀ context ∈ past.flatMap Consulted.contexts,
      ∃ text, context = .str text
  | handler :: _ =>
    Clear isWord (seen policy payload past) handler.ifCondition ∧
      (matchesCondition isWord handler.ifCondition (seen policy payload past) = .ok true ->
        ∃ decision, handler.run (seen policy payload past) = .ok decision ∧
          Not (Unhashable policy (seen policy payload past) decision))

end Safety

/-- Wherever the consultation of the hooks gets to, no pattern of the next hook's
condition is matched against an input that is neither missing nor a text, the
hook raises nothing if it is run, and its target can be looked up; and if it gets
to the end, the contexts are texts. -/
def Unhindered (chain : HookChain) (payload : HookPayload) : Prop :=
  ∀ past later, chain.sorted = past.map Consulted.handler ++ later ->
    Walk isWord chain.event.policy payload past ->
      Safe isWord chain.event.policy payload past later

section OneStep

variable {isWord : Char -> Bool} {policy : EventPolicy} {payload : HookPayload}
variable {decision : HookDecision} {handler : HookHandler} {past : List Consulted}

theorem Unhashable.ends (unhashable : Unhashable policy payload decision) :
    Ends policy payload decision := by
  rcases unhashable with ⟨kind, allowed, shallow, other⟩
  refine .inr (.inr ⟨kind, allowed, shallow, ?_⟩)
  intro target _ same
  rcases other with ⟨items, here⟩ | ⟨fields, here⟩
  · cases here.symm.trans same
  · cases here.symm.trans same

theorem wasVisited_cases (payload : HookPayload) (target : Json) :
    (wasVisited payload target = .ok true ∧ ∃ text ∈ payload.visited, target = .str text) ∨
      (wasVisited payload target = .ok false ∧ (∀ text ∈ payload.visited, target ≠ .str text) ∧
        Not ((∃ items, target = .arr items) ∨ ∃ fields, target = .obj fields)) ∨
      ((∃ error, wasVisited payload target = .error error) ∧
        ((∃ items, target = .arr items) ∨ ∃ fields, target = .obj fields)) := by
  cases target with
  | str text =>
    by_cases visited : text ∈ payload.visited
    · left
      refine ⟨?_, text, visited, rfl⟩
      simpa [wasVisited] using visited
    · right
      left
      refine ⟨?_, ?_, ?_⟩
      · simpa [wasVisited] using visited
      · intro other member same
        exact visited (Json.str.inj same ▸ member)
      · simp
  | arr items => exact .inr (.inr ⟨⟨_, rfl⟩, .inl ⟨items, rfl⟩⟩)
  | obj fields => exact .inr (.inr ⟨⟨_, rfl⟩, .inr ⟨fields, rfl⟩⟩)
  | null | bool _ | int _ | float _ => exact .inr (.inl ⟨rfl, by simp, by simp⟩)

theorem goesOn_cases (policy : EventPolicy) (payload : HookPayload) (decision : HookDecision) :
    (goesOn policy payload decision = .ok true ∧ Not (Ends policy payload decision)) ∨
      (goesOn policy payload decision = .ok false ∧ Ends policy payload decision ∧
        Not (Unhashable policy payload decision)) ∨
      ((∃ error, goesOn policy payload decision = .error error) ∧
        Unhashable policy payload decision) := by
  unfold goesOn Ends Unhashable
  cases decision.kind with
  | proceed => exact .inl ⟨rfl, by simp⟩
  | modify => exact .inl ⟨rfl, by simp⟩
  | block =>
    cases policy.blockable with
    | true => exact .inr (.inl ⟨rfl, by simp, by simp⟩)
    | false => exact .inl ⟨rfl, by simp⟩
  | reply =>
    cases policy.replyAllowed with
    | true => exact .inr (.inl ⟨rfl, by simp, by simp⟩)
    | false => exact .inl ⟨rfl, by simp⟩
  | reroute =>
    dsimp only
    by_cases followed : policy.rerouteAllowed = true ∧ payload.depth < maxRerouteDepth
    · have looked : (!policy.rerouteAllowed || decide (maxRerouteDepth ≤ payload.depth)) = false := by
        simp [followed.1, followed.2]
      rw [looked]
      rcases wasVisited_cases payload decision.target with ⟨answer, visited⟩ | ⟨answer, fresh, plain⟩ |
        ⟨raised, odd⟩
      · refine .inl ⟨answer, ?_⟩
        intro ends
        rcases visited with ⟨text, member, same⟩
        rcases ends with ⟨impossible, _⟩ | ⟨impossible, _⟩ | ⟨_, _, _, fresh⟩
        · cases impossible
        · cases impossible
        · exact fresh text member same
      · refine .inr (.inl ⟨answer, .inr (.inr ⟨rfl, followed.1, followed.2, fresh⟩), ?_⟩)
        exact fun odd => plain odd.2.2.2
      · right
        right
        exact ⟨raised, rfl, followed.1, followed.2, odd⟩
    · have ignored : (!policy.rerouteAllowed || decide (maxRerouteDepth ≤ payload.depth)) = true := by
        by_contra other
        simp at other
        exact followed other
      rw [ignored]
      refine .inl ⟨rfl, ?_⟩
      intro ends
      rcases ends with ⟨impossible, _⟩ | ⟨impossible, _⟩ | ⟨_, allowed, shallow, _⟩
      · cases impossible
      · cases impossible
      · exact followed ⟨allowed, shallow⟩

def stateAfter (policy : EventPolicy) (payload : HookPayload) (past : List Consulted) : ChainState where
  patch := overlay [] (past.flatMap (Consulted.patch policy))
  contexts := past.flatMap Consulted.contexts
  payload := seen policy payload past

theorem stateAfter_skip :
    stateAfter policy payload (past ++ [⟨handler, none⟩]) = stateAfter policy payload past := by
  simp [stateAfter, seen, Consulted.patch, Consulted.contexts]

theorem stateAfter_take : stateAfter policy payload (past ++ [⟨handler, some decision⟩]) =
      (stateAfter policy payload past).take policy decision := by
  simp only [stateAfter, seen, ChainState.take, overlay, List.flatMap_append, List.flatMap_singleton,
    List.foldl_append, Consulted.patch, Consulted.contexts]
  cases decision.context.truthy <;> simp

theorem contextText_ok {context : Json} {text : String} :
    contextText context = .ok text <-> context = .str text := by
  cases context <;> simp [contextText]

theorem joinContexts_ok {contexts : List Json} {context : String} :
    joinContexts contexts = .ok context <->
      ∃ texts, contexts = texts.map Json.str ∧ context = "\n".intercalate texts := by
  have read (texts : List String) :
      contexts.mapM contextText = .ok texts <-> contexts = texts.map Json.str := by
    rw [mapM_eq_ok_iff, ← List.forall₂_eq_eq_eq, List.forall₂_map_right_iff]
    simp only [contextText_ok]
  unfold joinContexts
  rw [bind_eq_ok]
  simp only [read]
  constructor
  · intro joined
    rcases joined with ⟨texts, same, done⟩
    cases done
    exact ⟨texts, same, rfl⟩
  · intro joined
    rcases joined with ⟨texts, same, done⟩
    exact ⟨texts, same, congrArg Except.ok done.symm⟩

theorem walk_nil : Walk isWord policy payload [] := by
  intro before consulted after split
  cases before <;> cases split

theorem walk_append_singleton {consulted : Consulted} (walk : Walk isWord policy payload past)
    (fits : Fits isWord policy (seen policy payload past) consulted) :
    Walk isWord policy payload (past ++ [consulted]) := by
  refine forall_split_append walk ?_
  intro before entry after split
  cases before with
  | nil =>
    cases split
    rw [List.append_nil]
    exact fits
  | cons head tail => cases tail <;> cases split

theorem Fits.unique {current : HookPayload} {first second : Option HookDecision}
    (fits : Fits isWord policy current ⟨handler, first⟩)
    (likewise : Fits isWord policy current ⟨handler, second⟩) : second = first := by
  cases first with
  | none =>
    cases second with
    | none => rfl
    | some decision => cases (show _ = _ from fits).symm.trans likewise.1
  | some decision =>
    cases second with
    | none => cases fits.1.symm.trans likewise
    | some other => exact congrArg some (Except.ok.inj (likewise.2.1.symm.trans fits.2.1))

theorem runFrom_cons (isWord : Char -> Bool) (policy : EventPolicy) (state : ChainState)
    (handler : HookHandler) (rest : List HookHandler) :
    HookChain.runFrom isWord policy (handler :: rest) state = (do
      if (<- matchesCondition isWord handler.ifCondition state.payload) then
        let decision <- handler.run state.payload
        if (<- goesOn policy state.payload decision) then
          HookChain.runFrom isWord policy rest (state.take policy decision)
        else pure (decision, state.payload)
      else HookChain.runFrom isWord policy rest state) :=
  rfl

theorem runFrom_decided {state : ChainState} {rest : List HookHandler}
    (holds : matchesCondition isWord handler.ifCondition state.payload = .ok true)
    (decided : handler.run state.payload = .ok decision) :
    HookChain.runFrom isWord policy (handler :: rest) state = (do
      if (<- goesOn policy state.payload decision) then
        HookChain.runFrom isWord policy rest (state.take policy decision)
      else pure (decision, state.payload)) := by
  rw [runFrom_cons, holds]
  change (handler.run state.payload >>= _) = _
  rw [decided]
  rfl

theorem runFrom_cons_cases (isWord : Char -> Bool) (policy : EventPolicy) (payload : HookPayload)
    (past : List Consulted) (handler : HookHandler) (rest : List HookHandler) :
    (∃ decision, Fits isWord policy (seen policy payload past) ⟨handler, decision⟩ ∧
        Safe isWord policy payload past (handler :: rest) ∧
        HookChain.runFrom isWord policy (handler :: rest) (stateAfter policy payload past) =
          HookChain.runFrom isWord policy rest
            (stateAfter policy payload (past ++ [⟨handler, decision⟩]))) ∨ (∃ decision,
        Outcome isWord policy payload past (handler :: rest) decision (seen policy payload past) ∧
        Safe isWord policy payload past (handler :: rest) ∧
        HookChain.runFrom isWord policy (handler :: rest) (stateAfter policy payload past) =
          .ok (decision, seen policy payload past)) ∨
      (Not (Safe isWord policy payload past (handler :: rest)) ∧ ∃ error,
        HookChain.runFrom isWord policy (handler :: rest) (stateAfter policy payload past) =
          .error error) := by
  have clear := @matchesCondition_ok_iff isWord (seen policy payload past) handler.ifCondition
  have step := runFrom_cons isWord policy (stateAfter policy payload past) handler rest
  rw [show (stateAfter policy payload past).payload = seen policy payload past from rfl] at step
  cases answer : matchesCondition isWord handler.ifCondition (seen policy payload past) with
  | error error =>
    rw [answer] at clear step
    refine .inr (.inr ⟨?_, error, step⟩)
    intro safe
    rcases clear.mpr safe.1 with ⟨found, impossible⟩
    cases impossible
  | ok holds =>
    have free := clear.mp ⟨holds, answer⟩
    rw [answer] at step
    cases holds with
    | false =>
      refine .inl ⟨none, answer, ⟨free, ?_⟩, ?_⟩
      · intro impossible
        cases answer.symm.trans impossible
      · rw [stateAfter_skip]
        exact step
    | true =>
      cases decided : handler.run (seen policy payload past) with
      | error error =>
        rw [decided] at step
        refine .inr (.inr ⟨?_, error, step⟩)
        intro safe
        rcases safe.2 answer with ⟨decision, impossible, _⟩
        cases decided.symm.trans impossible
      | ok decision =>
        have step := @runFrom_decided isWord policy decision handler
          (stateAfter policy payload past) rest answer decided
        rcases goesOn_cases policy (seen policy payload past) decision with
          ⟨on, running⟩ | ⟨stops, ends, plain⟩ | ⟨⟨error, raised⟩, odd⟩
        · refine .inl ⟨some decision, ⟨answer, decided, running⟩, ⟨free, ?_⟩, ?_⟩
          · exact fun _ => ⟨decision, decided, fun odd => running odd.ends⟩
          · rw [stateAfter_take, step]
            change (goesOn policy (seen policy payload past) decision >>= _) = _
            rw [on]
            rfl
        · refine .inr (.inl ⟨decision, ⟨rfl, answer, decided, ends⟩, ⟨free, ?_⟩, ?_⟩)
          · exact fun _ => ⟨decision, decided, plain⟩
          · rw [step]
            change (goesOn policy (seen policy payload past) decision >>= _) = _
            rw [stops]
            rfl
        · refine .inr (.inr ⟨?_, error, ?_⟩)
          · intro safe
            rcases safe.2 answer with ⟨other, same, plain⟩
            cases decided.symm.trans same
            exact plain odd
          · rw [step]
            change (goesOn policy (seen policy payload past) decision >>= _) = _
            rw [raised]
            rfl

end OneStep

section WholeChain

variable {isWord : Char -> Bool} {policy : EventPolicy} {payload : HookPayload}

theorem outcome_of_ok {later : List HookHandler} {past : List Consulted} {decision : HookDecision}
    {final : HookPayload} (walk : Walk isWord policy payload past)
    (returned : HookChain.runFrom isWord policy later (stateAfter policy payload past) =
      .ok (decision, final)) : ∃ more rest, later = more.map Consulted.handler ++ rest ∧
      Walk isWord policy payload (past ++ more) ∧
        Outcome isWord policy payload (past ++ more) rest decision final := by
  induction later generalizing past with
  | nil =>
    rcases bind_eq_ok.mp returned with ⟨context, joined, done⟩
    rcases joinContexts_ok.mp joined with ⟨texts, same, shown⟩
    refine ⟨[], [], rfl, (List.append_nil past).symm ▸ walk, ?_⟩
    rw [List.append_nil]
    cases done
    exact ⟨rfl, texts, same, shown ▸ rfl⟩
  | cons handler tail ih =>
    rcases runFrom_cons_cases isWord policy payload past handler tail with
      ⟨taken, fits, _, same⟩ | ⟨last, outcome, _, same⟩ | ⟨_, error, raised⟩
    · rw [same] at returned
      rcases ih (walk_append_singleton walk fits) returned with
        ⟨more, rest, split, onward, outcome⟩
      rw [List.append_assoc, List.singleton_append] at onward outcome
      exact ⟨⟨handler, taken⟩ :: more, rest, by rw [split]; rfl, onward, outcome⟩
    · cases same.symm.trans returned
      exact ⟨[], handler :: tail, rfl, (List.append_nil past).symm ▸ walk,
        (List.append_nil past).symm ▸ outcome⟩
    · cases raised.symm.trans returned

theorem split_cases {handler : HookHandler} {tail rest : List HookHandler} {more : List Consulted}
    (split : handler :: tail = more.map Consulted.handler ++ rest) :
    (more = [] ∧ rest = handler :: tail) ∨ ∃ decision others,
      more = ⟨handler, decision⟩ :: others ∧ tail = others.map Consulted.handler ++ rest := by
  cases more with
  | nil => exact .inl ⟨rfl, split.symm⟩
  | cons first others =>
    cases split
    exact .inr ⟨first.decision, others, rfl, rfl⟩

theorem Walk.fits {past more : List Consulted} {consulted : Consulted}
    (walk : Walk isWord policy payload (past ++ consulted :: more)) :
    Fits isWord policy (seen policy payload past) consulted :=
  walk past consulted more rfl

theorem texts_of_forall {contexts : List Json}
    (all : ∀ context ∈ contexts, ∃ text, context = .str text) :
    ∃ texts : List String, contexts = texts.map Json.str := by
  induction contexts with
  | nil => exact ⟨[], rfl⟩
  | cons first rest ih =>
    rcases all first List.mem_cons_self with ⟨text, same⟩
    rcases ih fun context member => all context (List.mem_cons_of_mem _ member) with
      ⟨texts, others⟩
    exact ⟨text :: texts, by rw [same, others]; rfl⟩

theorem ok_iff_safe {later : List HookHandler} {past : List Consulted}
    (walk : Walk isWord policy payload past) : (∃ result,
      HookChain.runFrom isWord policy later (stateAfter policy payload past) = .ok result) <->
      ∀ more rest, later = more.map Consulted.handler ++ rest ->
        Walk isWord policy payload (past ++ more) ->
          Safe isWord policy payload (past ++ more) rest := by
  induction later generalizing past with
  | nil =>
    constructor
    · intro answered more rest split _
      rcases answered with ⟨result, returned⟩
      rcases bind_eq_ok.mp returned with ⟨context, joined, _⟩
      rcases joinContexts_ok.mp joined with ⟨texts, same, _⟩
      rcases List.append_eq_nil_iff.mp split.symm with ⟨none, nothing⟩
      rw [List.map_eq_nil_iff.mp none, nothing, List.append_nil]
      intro context member
      rw [show past.flatMap Consulted.contexts = texts.map Json.str from same] at member
      rcases List.mem_map.mp member with ⟨text, _, shown⟩
      exact ⟨text, shown.symm⟩
    · intro safe
      have all := safe [] [] rfl ((List.append_nil past).symm ▸ walk)
      rw [List.append_nil] at all
      rcases texts_of_forall all with ⟨texts, same⟩
      exact ⟨_, bind_eq_ok.mpr ⟨_, joinContexts_ok.mpr ⟨texts, same, rfl⟩, rfl⟩⟩
  | cons handler tail ih =>
    rcases runFrom_cons_cases isWord policy payload past handler tail with
      ⟨taken, fits, here, same⟩ | ⟨last, outcome, here, same⟩ | ⟨unsafely, error, raised⟩
    · rw [same, ih (walk_append_singleton walk fits)]
      constructor
      · intro safe more rest split onward
        rcases split_cases split with ⟨rfl, rfl⟩ | ⟨decision, others, rfl, remaining⟩
        · rw [List.append_nil]
          exact here
        · cases fits.unique onward.fits
          rw [List.append_cons] at onward ⊢
          exact safe others rest remaining onward
      · intro safe more rest split onward
        rw [List.append_assoc, List.singleton_append] at onward ⊢
        exact safe (⟨handler, taken⟩ :: more) rest (by rw [split]; rfl) onward
    · refine iff_of_true ⟨_, same⟩ ?_
      intro more rest split onward
      rcases split_cases split with ⟨rfl, rfl⟩ | ⟨decision, others, rfl, remaining⟩
      · rw [List.append_nil]
        exact here
      · have fits := onward.fits
        rcases outcome with ⟨_, holds, decided, ends⟩
        cases decision with
        | none => cases holds.symm.trans fits
        | some decision =>
          cases decided.symm.trans fits.2.1
          exact absurd ends fits.2.2
    · refine iff_of_false ?_ ?_
      · intro answered
        rcases answered with ⟨result, returned⟩
        cases raised.symm.trans returned
      · intro safe
        have here := safe [] (handler :: tail) rfl ((List.append_nil past).symm ▸ walk)
        rw [List.append_nil] at here
        exact unsafely here

theorem run_ok_iff {chain : HookChain} : (∃ result, chain.run isWord payload = .ok result) <->
      Unhindered isWord chain payload :=
  @ok_iff_safe isWord chain.event.policy payload chain.sorted [] walk_nil

theorem settled_of_ok {chain : HookChain} {decision : HookDecision} {final : HookPayload}
    (returned : chain.run isWord payload = .ok (decision, final)) :
    Settled isWord chain payload decision final := by
  rcases @outcome_of_ok isWord chain.event.policy payload chain.sorted [] decision final walk_nil
    returned with ⟨past, later, split, walk, outcome⟩
  exact ⟨chain.sorted, past, later, byPriority_inOrder, split, walk, outcome⟩

end WholeChain

/-- The hooks whose conditions hold are consulted in stable descending priority up to
the first BLOCK, REPLY or REROUTE that the event permits, the result is that decision
or the aggregate, and nothing aborts the chain, exactly if the consultation is never
hindered. -/
theorem run_iff (isWord : Char -> Bool) (chain : HookChain) (payload : HookPayload) :
    (∃ decision final, chain.run isWord payload = .ok (decision, final) ∧
      Settled isWord chain payload decision final) <-> Unhindered isWord chain payload := by
  rw [← run_ok_iff]
  constructor
  · intro settled
    rcases settled with ⟨decision, final, returned, _⟩
    exact ⟨(decision, final), returned⟩
  · intro answered
    rcases answered with ⟨⟨decision, final⟩, returned⟩
    exact ⟨decision, final, returned, settled_of_ok returned⟩

/-- A hook on the shell commands that remove something, and after it one which
blocks every tool. -/
def guardedShell : HookChain where
  event := .preToolUse
  handlers :=
    [{ name := "removals", priority := 10, ifCondition := some (.pattern "Bash(rm *)"),
       run := fun _ => .ok {} },
      { name := "lockdown", run := fun _ => .ok { kind := .block, reason := "locked down" } }]

/-- The tool's input is an object: the first condition raises, and the hook that
would block the tool is not consulted. -/
theorem guardedShell_aborts : Not (∃ decision final,
    guardedShell.run Char.isAlphanum
        { event := .preToolUse
          data := [("tool_name", .str "Bash"),
            ("tool_input", .obj [("command", .str "rm -rf /srv")])] } = .ok (decision, final) ∧
      Settled Char.isAlphanum guardedShell
        { event := .preToolUse
          data := [("tool_name", .str "Bash"),
            ("tool_input", .obj [("command", .str "rm -rf /srv")])] } decision final) := by
  intro settled
  rcases settled with ⟨decision, final, returned, _⟩
  cases returned

theorem HookEvent.ofValue_value (event : HookEvent) : HookEvent.ofValue event.value = some event := by
  cases event <;> decide

theorem runHookChain_ok_iff {isWord : Char -> Bool} {registered : Dict String (List HookHandler)}
    {event : HookEvent} {payload : HookPayload} {decision : HookDecision} :
    runHookChain isWord registered event.value payload = .ok decision <-> ∃ final,
        HookChain.run isWord ⟨event, (registered.lookup event.value).getD []⟩ payload =
          .ok (decision, final) := by
  unfold runHookChain
  cases (registered.lookup event.value).getD [] with
  | nil =>
    constructor
    · intro same
      cases same
      exact ⟨payload, rfl⟩
    · intro returned
      rcases returned with ⟨final, same⟩
      cases same
      rfl
  | cons first rest =>
    dsimp only
    rw [HookEvent.ofValue_value, Option.getD_some, bind_eq_ok]
    constructor
    · intro returned
      rcases returned with ⟨result, run, same⟩
      cases same
      exact ⟨result.2, run⟩
    · intro returned
      rcases returned with ⟨final, run⟩
      exact ⟨(decision, final), run, rfl⟩

/-- The event bus returns what the hooks registered for the event decide as a chain. -/
theorem runHookChain_iff (registered : Dict String (List HookHandler))
    (event : HookEvent) (payload : HookPayload) : (∃ decision final,
      runHookChain isWord registered event.value payload = .ok decision ∧
        Settled isWord ⟨event, (registered.lookup event.value).getD []⟩ payload decision final) <->
      Unhindered isWord ⟨event, (registered.lookup event.value).getD []⟩ payload := by
  rw [← run_ok_iff]
  constructor
  · intro settled
    rcases settled with ⟨decision, _, returned, _⟩
    rcases runHookChain_ok_iff.mp returned with ⟨final, run⟩
    exact ⟨(decision, final), run⟩
  · intro answered
    rcases answered with ⟨⟨decision, final⟩, run⟩
    exact ⟨decision, final, runHookChain_ok_iff.mpr ⟨final, run⟩, settled_of_ok run⟩

end Hooks
end BreadMind
