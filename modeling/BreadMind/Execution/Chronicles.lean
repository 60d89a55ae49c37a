import Mathlib.Data.List.Sort

namespace BreadMind
namespace Execution

universe u v w

/-!
# Entries in the order of their stamps

A table of entries with different stamps is read in the order of the stamps, while
entries may come in with any stamp.  What such an entry means for the contents that
a reader sees is whether it looks as if it had been put at the end.
-/

variable {Entry : Type u} {Stamp : Type v} {Content : Type w} [LinearOrder Stamp] (stamp : Entry -> Stamp)

def chronicle (entries : List Entry) : List Entry :=
  entries.insertionSort fun entry other => stamp entry ≤ stamp other

def DistinctStamps (entries : List Entry) : Prop :=
  entries.Pairwise fun entry other => stamp entry ≠ stamp other

variable {stamp} {entries : List Entry} {entry : Entry}

theorem mem_chronicle : entry ∈ chronicle stamp entries <-> entry ∈ entries :=
  List.mem_insertionSort _

theorem chronicle_ascends (distinct : DistinctStamps stamp entries) :
    (chronicle stamp entries).Pairwise fun entry other => stamp entry < stamp other := by
  have total : Std.Total fun entry other : Entry => stamp entry ≤ stamp other :=
    ⟨fun entry other => le_total (stamp entry) (stamp other)⟩
  have transitive : IsTrans Entry fun entry other => stamp entry ≤ stamp other :=
    ⟨fun _ _ _ first second => le_trans first second⟩
  have sorted : (chronicle stamp entries).Pairwise fun entry other => stamp entry ≤ stamp other :=
    List.pairwise_insertionSort _ _
  have apart : (chronicle stamp entries).Pairwise fun entry other => stamp entry ≠ stamp other :=
    ((List.perm_insertionSort _ entries).pairwise_iff fun apart => Ne.symm apart).mpr distinct
  exact sorted.imp₂ (fun _ _ order apart => lt_of_le_of_ne order apart) apart

theorem eq_of_ascends {first second : List Entry} (same : first.Perm second)
    (firstAscends : first.Pairwise fun entry other => stamp entry < stamp other)
    (secondAscends : second.Pairwise fun entry other => stamp entry < stamp other) : first = second :=
  same.eq_of_pairwise (fun _ _ _ _ less greater => absurd greater (lt_asymm less)) firstAscends
    secondAscends

variable (stamp) in
theorem chronicle_split (distinct : DistinctStamps stamp entries)
    (new : ∀ other ∈ entries, stamp other ≠ stamp entry) :
    chronicle stamp entries = (chronicle stamp entries).filter (fun other => stamp other < stamp entry) ++
      (chronicle stamp entries).filter fun other => stamp entry < stamp other := by
  have ascends := chronicle_ascends distinct
  have rest : (chronicle stamp entries).filter (fun other => stamp entry < stamp other) =
      (chronicle stamp entries).filter fun other => !decide (stamp other < stamp entry) := by
    refine List.filter_congr fun other member => ?_
    have apart := new other (mem_chronicle.mp member)
    rw [← decide_not, decide_eq_decide, not_lt]
    exact ⟨le_of_lt, fun order => lt_of_le_of_ne order apart.symm⟩
  refine eq_of_ascends ?_ ascends ?_
  · rw [rest]
    exact (List.filter_append_perm _ _).symm
  · refine List.pairwise_append.mpr ⟨ascends.filter _, ascends.filter _, ?_⟩
    intro before isBefore after isAfter
    exact (of_decide_eq_true (List.mem_filter.mp isBefore).2).trans
      (of_decide_eq_true (List.mem_filter.mp isAfter).2)

theorem chronicle_append (distinct : DistinctStamps stamp entries)
    (new : ∀ other ∈ entries, stamp other ≠ stamp entry) : chronicle stamp (entries ++ [entry]) =
      (chronicle stamp entries).filter (fun other => stamp other < stamp entry) ++
        entry :: (chronicle stamp entries).filter fun other => stamp entry < stamp other := by
  have ascends := chronicle_ascends distinct
  refine eq_of_ascends ?_ (chronicle_ascends ?_) ?_
  · have parts := (List.perm_middle.trans
      ((List.Perm.of_eq (chronicle_split stamp distinct new).symm).cons entry)).symm
    have sorted := (List.perm_insertionSort (fun entry other => stamp entry ≤ stamp other) entries).symm
    refine (List.perm_insertionSort _ _).trans ((List.perm_append_singleton _ _).trans ?_)
    exact (sorted.cons entry).trans parts
  · refine List.pairwise_append.mpr ⟨distinct, List.pairwise_singleton _ _, ?_⟩
    intro other member last isLast
    rw [List.mem_singleton.mp isLast]
    exact new other member
  · refine List.pairwise_append.mpr ⟨ascends.filter _, List.pairwise_cons.mpr ⟨?_, ascends.filter _⟩, ?_⟩
    · exact fun after isAfter => of_decide_eq_true (List.mem_filter.mp isAfter).2
    · intro before isBefore after isAfter
      have first := of_decide_eq_true (List.mem_filter.mp isBefore).2
      rcases List.mem_cons.mp isAfter with rfl | later
      · exact first
      · exact first.trans (of_decide_eq_true (List.mem_filter.mp later).2)

/-- An item put in between looks like one put at the end only among equal items. -/
theorem insert_eq_append_iff {before after : List Content} {item last : Content} :
    before ++ item :: after = (before ++ after) ++ [last] <->
      item = last ∧ ∀ other ∈ after, other = last := by
  rw [List.append_assoc, List.append_cancel_left_eq]
  induction after generalizing item with
  | nil =>
    rw [List.nil_append, List.cons.injEq]
    exact and_congr_right fun _ => iff_of_true rfl fun _ none_ => (nomatch none_)
  | cons first rest ih =>
    rw [List.cons_append, List.cons.injEq, ih, List.forall_mem_cons]
    constructor
    · rintro ⟨rfl, same, others⟩
      exact ⟨same, same, others⟩
    · rintro ⟨isLast, same, others⟩
      exact ⟨isLast.trans same.symm, same, others⟩

theorem chronicle_grows_iff {content : Entry -> Content} {last : Content}
    (distinct : DistinctStamps stamp entries) (new : ∀ other ∈ entries, stamp other ≠ stamp entry) :
    (chronicle stamp (entries ++ [entry])).map content = (chronicle stamp entries).map content ++ [last] <->
      content entry = last ∧
        ∀ other ∈ entries, stamp entry < stamp other -> content other = last := by
  have parts := congrArg (List.map content) (chronicle_split stamp distinct new)
  rw [List.map_append] at parts
  rw [chronicle_append distinct new, List.map_append, List.map_cons, parts, insert_eq_append_iff]
  refine and_congr_right fun _ => ⟨?_, ?_⟩
  · intro every other member later
    exact every _ (List.mem_map_of_mem
      (List.mem_filter.mpr ⟨mem_chronicle.mpr member, decide_eq_true later⟩))
  · intro every item member
    rcases List.mem_map.mp member with ⟨other, kept, rfl⟩
    have ⟨inside, later⟩ := List.mem_filter.mp kept
    exact every other (mem_chronicle.mp inside) (of_decide_eq_true later)

end Execution
end BreadMind
