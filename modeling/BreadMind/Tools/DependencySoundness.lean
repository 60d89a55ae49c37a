import BreadMind.Tools.DependencyEdges

namespace BreadMind
namespace Tools
namespace DependencyGraph

open Execution Relation

/-!
# The graph over its operations

A dependency on a name without a node is not registered when the node is added
later, and an edge of a node to itself is not seen as a cycle.  Without these
two the operations keep the graph sound, and only without them.
-/

/-- Each node lists once just those that depend on it, and none leads back to itself. -/
structure Sound (graph : DependencyGraph) : Prop where
  mirrored : ∀ name target, graph.Present target ->
    (graph.Listed target name <-> graph.Depends name target)
  once : graph.Once
  acyclic : Acyclic graph.Edge

namespace Operation

/-- A node comes before those that depend on it, and nothing is made to depend
on itself. -/
def Orderly (graph : DependencyGraph) : Operation -> Prop
  | .addNode name _ dependsOn =>
    Not (graph.Present name) ->
      name ∉ dependsOn.getD [] ∧ ∀ other, Not (graph.Depends other name)
  | .removeNode _ => True
  | .addDependency name dependsOn => graph.Present name -> name ≠ dependsOn

/-- A node is removed only if no other node depends on it. -/
def RemovesFree (graph : DependencyGraph) : Operation -> Prop
  | .removeNode name => (graph.removeNode name).1 = true ->
      Not (∃ other, graph.Depends other name)
  | _ => True

end Operation

variable {graph next : DependencyGraph}

theorem sound_empty : Sound [] := by
  refine ⟨?_, ?_, ?_⟩
  · rintro name target ⟨node, impossible⟩
    cases impossible
  · intro name node impossible
    cases impossible
  · refine acyclic_of_rank (fun _ => 0) ?_
    rintro source target ⟨⟨node, impossible, _⟩, _⟩
    cases impossible

variable {name : String}

theorem transGen_edge {target : String} (leads : TransGen graph.Depends name target)
    (present : graph.Present target) : TransGen graph.Edge name target := by
  induction leads with
  | single step => exact TransGen.single ⟨step, present⟩
  | tail _ step ih => exact (ih step.present).tail ⟨step, present⟩

/-- Who is listed as a dependent is one, and is listed once. -/
structure WellFormed (graph : DependencyGraph) : Prop where
  backed : ∀ name target, graph.Listed target name -> graph.Depends name target
  once : graph.Once

theorem wellFormed_empty : WellFormed [] := by
  refine ⟨?_, ?_⟩
  · rintro name target ⟨node, impossible, _⟩
    cases impossible
  · intro name node impossible
    cases impossible

theorem wellFormed_perform (wellFormed : graph.WellFormed) (operation : Operation) :
    (graph.perform operation).WellFormed := by
  rcases wellFormed with ⟨backed, once⟩
  cases operation with
  | addNode name nodeType given =>
    change ((graph.addNode name nodeType given).toOption.getD graph).WellFormed
    cases added : graph.addNode name nodeType given with
    | error stop => exact ⟨backed, once⟩
    | ok next =>
      rcases addNode_ok added with ⟨_, _, depends, listed, kept⟩
      refine ⟨fun source target later => ?_, kept once⟩
      rcases (listed target source).mp later with old | ⟨same, own, _⟩
      · exact (depends source target).mpr (.inr (backed source target old))
      · exact (depends source target).mpr (.inl ⟨same, own⟩)
  | removeNode name =>
    change (graph.removeNode name).2.WellFormed
    rcases @removeNode_eq graph name once with ⟨_, kept, removed⟩
    cases answer : (graph.removeNode name).1 with
    | false =>
      rw [kept answer]
      exact ⟨backed, once⟩
    | true =>
      rcases removed answer with ⟨_, depends, listed, kept⟩
      refine ⟨fun source target later => ?_, kept⟩
      rcases (listed target source).mp later with ⟨_, old, off⟩
      have step := backed source target old
      exact (depends source target).mpr ⟨fun same => off ⟨same, same ▸ step⟩, step⟩
  | addDependency name dependsOn =>
    change ((graph.addDependency name dependsOn).toOption.getD graph).WellFormed
    cases added : graph.addDependency name dependsOn with
    | error stop => exact ⟨backed, once⟩
    | ok next =>
      rcases addDependency_ok added with ⟨same, _⟩ | ⟨_, _, _, _, depends, listed, kept⟩
      · change WellFormed next
        rw [same]
        exact ⟨backed, once⟩
      · refine ⟨fun source target later => ?_, kept once⟩
        refine (depends source target).mpr (((listed target source).mp later).imp_left ?_)
        exact backed source target

theorem wellFormed_after (operations : List Operation) : (machine.after operations).WellFormed :=
  machine.invariant_after WellFormed wellFormed_empty
    (fun _ operation wellFormed => wellFormed_perform wellFormed operation) operations

/-! ## Each operation on a sound graph -/

theorem addNode_absent (absent : Not (graph.Present name)) (nodeType : NodeType)
    (given : Option (List String)) : ∃ next, graph.addNode name nodeType given = .ok next := by
  unfold addNode
  rw [if_neg fun found => absent (isSome_iff_present.mp found)]
  exact ⟨_, rfl⟩

theorem sound_addNode_iff {nodeType : NodeType} {given : Option (List String)}
    (sound : graph.Sound) (added : graph.addNode name nodeType given = .ok next) : next.Sound <->
      name ∉ given.getD [] ∧ ∀ other, Not (graph.Depends other name) := by
  rcases addNode_ok added with ⟨absent, present, depends, listed, once⟩
  have here : next.Present name := (present name).mpr (.inl rfl)
  constructor
  · intro after
    have apart : name ∉ given.getD [] := by
      intro own
      have loop : next.Edge name name := ⟨(depends name name).mpr (.inl ⟨rfl, own⟩), here⟩
      exact after.acyclic name (TransGen.single loop)
    refine ⟨apart, fun other earlier => ?_⟩
    have later := (after.mirrored other name here).mpr ((depends other name).mpr (.inr earlier))
    rcases (listed name other).mp later with old | ⟨_, own, _⟩
    · exact absent old.present
    · exact apart own
  · rintro ⟨apart, first⟩
    refine ⟨fun source target there => ?_, once sound.once, ?_⟩
    · rw [listed, depends]
      rcases (present target).mp there with rfl | old
      · have unlisted : Not (graph.Listed target source) := fun old => absent old.present
        simp only [unlisted, apart, first source, and_false, false_and, or_false]
      · rw [sound.mirrored source target old, or_comm]
        exact or_congr_left (and_congr_right fun _ => and_iff_left there)
    · refine sound.acyclic.of_source name fun source target edge => ?_
      rcases edge with ⟨step, there⟩
      have ends : target ≠ name := by
        rintro rfl
        exact ((depends source target).mp step).elim (fun own => apart own.2) (first source)
      refine ⟨ends, ((depends source target).mp step).imp And.left fun old => ⟨old, ?_⟩⟩
      exact ((present target).mp there).resolve_left ends

theorem sound_addDependency_iff {dependsOn : String} (sound : graph.Sound)
    (added : graph.addDependency name dependsOn = .ok next) :
    next.Sound <-> (graph.Present name -> name ≠ dependsOn) := by
  rcases addDependency_ok added with
    ⟨rfl, old⟩ | ⟨here, there, open_, present, depends, listed, once⟩
  · refine iff_of_true sound fun present same => ?_
    subst same
    exact sound.acyclic name (TransGen.single ⟨old, present⟩)
  constructor
  · intro after _ same
    subst same
    have loop : next.Edge name name :=
      ⟨(depends name name).mpr (.inr ⟨rfl, rfl⟩), (present name).mpr here⟩
    exact after.acyclic name (TransGen.single loop)
  · intro apart
    refine ⟨fun source target target_ => ?_, once sound.once, ?_⟩
    · rw [listed, depends, sound.mirrored source target ((present target).mp target_)]
    · have back : Not (ReflTransGen graph.Edge dependsOn name) := by
        intro leads
        rcases reflTransGen_iff_eq_or_transGen.mp leads with same | path
        · exact apart here same
        · exact open_ (TransGen.mono (fun _ _ => And.left) _ _ path)
      refine (sound.acyclic.insert back).mono ?_
      rintro source target ⟨step, target_⟩
      exact ((depends source target).mp step).imp_left fun old => ⟨old, (present target).mp target_⟩

theorem sound_removeNode (sound : graph.Sound) (name : String) : (graph.removeNode name).2.Sound := by
  rcases @removeNode_eq graph name sound.once with ⟨_, kept, removed⟩
  cases answer : (graph.removeNode name).1 with
  | false =>
    rw [kept answer]
    exact sound
  | true =>
    rcases removed answer with ⟨present, depends, listed, once⟩
    refine ⟨fun source target there => ?_, once, sound.acyclic.mono ?_⟩
    · rcases (present target).mp there with ⟨off, old⟩
      rw [listed, depends, sound.mirrored source target old]
      constructor
      · rintro ⟨_, step, not⟩
        exact ⟨fun same => not ⟨same, same ▸ step⟩, step⟩
      · exact fun both => ⟨off, both.2, fun same => both.1 same.1⟩
    · rintro source target ⟨step, there⟩
      exact ⟨((depends source target).mp step).2, ((present target).mp there).2⟩

theorem sound_perform_iff (sound : graph.Sound) (operation : Operation) :
    (graph.perform operation).Sound <-> operation.Orderly graph := by
  cases operation with
  | addNode name nodeType given =>
    change ((graph.addNode name nodeType given).toOption.getD graph).Sound <-> (_ -> _)
    by_cases absent : graph.Present name
    · have kept : graph.addNode name nodeType given =
          .error (.valueError ("Node '" ++ name ++ "' already exists")) :=
        if_pos (isSome_iff_present.mpr absent)
      rw [kept]
      exact iff_of_true sound fun not => absurd absent not
    · rcases addNode_absent absent nodeType given with ⟨next, added⟩
      rw [added]
      refine (sound_addNode_iff sound added).trans ?_
      exact ⟨fun orderly _ => orderly, fun orderly => orderly absent⟩
  | removeNode name => exact iff_of_true (sound_removeNode sound name) trivial
  | addDependency name dependsOn =>
    change ((graph.addDependency name dependsOn).toOption.getD graph).Sound <-> (_ -> _)
    cases done : graph.addDependency name dependsOn with
    | ok next => exact sound_addDependency_iff sound done
    | error stop =>
      refine iff_of_true sound fun present same => ?_
      subst same
      unfold addDependency at done
      have found : Not ((graph.lookup name).isSome = false) :=
        fun none_ => isSome_eq_false_iff.mp none_ present
      rw [if_neg found, if_neg found] at done
      split at done
      case isTrue => cases done
      case isFalse =>
      split at done
      case isTrue back =>
        exact sound.acyclic name (transGen_edge (mem_getAllDependencies.mp back) present)
      case isFalse => cases done

theorem removesFree_of_sound (sound : graph.Sound) (operation : Operation) :
    operation.RemovesFree graph := by
  cases operation with
  | addNode => trivial
  | addDependency => trivial
  | removeNode name =>
    rintro removed ⟨other, depends⟩
    rcases (removeNode_eq sound.once).1.mp removed with ⟨present, free⟩
    exact free other ((sound.mirrored other name present).mpr depends)

/-- The graph is sound throughout a run and no node is removed on which another
depends, exactly if every node is added before those that depend on it and none is
made to depend on itself. -/
theorem sound_run_iff (operations : List Operation) : (machine.EveryState Sound operations ∧
      machine.EveryStep (fun graph operation => operation.RemovesFree graph) operations) <->
      machine.EveryStep (fun graph operation => operation.Orderly graph) operations := by
  have states : machine.EveryState Sound operations <->
      machine.EveryStep (fun graph operation => operation.Orderly graph) operations :=
    machine.everyState_iff_everyStep (fun _ => True) sound_empty trivial (fun _ _ _ => trivial)
      (fun _ operation _ sound => sound_perform_iff sound operation) operations
  refine (and_iff_left_of_imp fun every => ?_).trans states
  exact machine.everyStep_of_guarded Sound _ sound_empty
    (fun _ operation sound orderly => (sound_perform_iff sound operation).mpr orderly)
    (fun _ operation sound _ => removesFree_of_sound sound operation) operations (states.mp every)

/-- A node is added after the one that depends on it, and can then be removed. -/
theorem forward_reference_unlisted : Not (machine.EveryState Sound
      [.addNode "a" .tool (some ["b"]), .addNode "b" .tool none]) ∧
    Not (machine.EveryStep (fun graph operation => operation.RemovesFree graph)
      [.addNode "a" .tool (some ["b"]), .addNode "b" .tool none, .removeNode "b"]) := by
  constructor
  · intro every
    have sound := every _ _ (List.append_nil _).symm
    have unlisted := (sound.mirrored "a" "b" ⟨⟨"b", .tool, [], []⟩, rfl⟩).mpr
      ⟨⟨"a", .tool, ["b"], []⟩, rfl, List.mem_singleton.mpr rfl⟩
    rcases unlisted with ⟨node, found, member⟩
    cases found
    cases member
  · intro every
    have free := every [.addNode "a" .tool (some ["b"]), .addNode "b" .tool none] (.removeNode "b") []
      rfl
    exact free rfl ⟨"a", ⟨"a", .tool, ["b"], []⟩, rfl, List.mem_singleton.mpr rfl⟩

end DependencyGraph
end Tools
end BreadMind
