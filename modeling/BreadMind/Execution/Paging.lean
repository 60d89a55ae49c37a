import Mathlib.Data.List.Sort
import Mathlib.Data.List.Perm.Subperm

namespace BreadMind
namespace Execution

universe u v

/-!
# Paging by the key of the last row

A table is read page by page in the descending order of a key.  The key of a row
on the page is the cursor of the next query, which asks for what lies strictly
beyond it.  Rows of one key stand in any order, and not in the same one for every
query.

Such a walk down the table misses the rows that have the key of a page's last row
and did not fit on the page.  A walk up the table starts with the newest rows and
can therefore only end there.
-/

variable {Row : Type u} {Key : Type v} [LinearOrder Key] (key : Row -> Key)

def below (before : Option Key) (rows : List Row) : List Row :=
  rows.filter fun row => decide (∀ bound ∈ before, key row < bound)

def above (after : Option Key) (rows : List Row) : List Row :=
  rows.filter fun row => decide (∀ bound ∈ after, bound < key row)

structure Descending (rows found : List Row) : Prop where
  perm : found.Perm rows
  sorted : found.Pairwise fun row later => key later ≤ key row

/-- Page by page, each query for what is below the last row so far. -/
def walkDown (fetch : Nat -> Option Key -> List Row) (limit : Nat) :
    Nat -> Nat -> Option Key -> Option (List Row)
  | 0, _, _ => none
  | fuel + 1, query, before =>
    if limit < (fetch query before).length then
      match ((fetch query before).take limit).getLast? with
      | none => none
      | some last => (walkDown fetch limit fuel (query + 1) (some (key last))).map fun rest =>
        (fetch query before).take limit ++ rest
    else some ((fetch query before).take limit)

/-- Page by page, each query for what is above a row of the page so far. -/
def walkUp (fetch : Nat -> Option Key -> List Row) (pick : List Row -> Option Row) (limit : Nat) :
    Nat -> Nat -> Option Key -> Option (List Row)
  | 0, _, _ => none
  | fuel + 1, query, after =>
    if limit < (fetch query after).length then
      match pick ((fetch query after).take limit) with
      | none => none
      | some row => (walkUp fetch pick limit fuel (query + 1) (some (key row))).map fun rest =>
        (fetch query after).take limit ++ rest
    else some ((fetch query after).take limit)

/-- No page ends between two equal keys. -/
def CleanBreaks (limit : Nat) (keys : List Key) : Prop :=
  ∀ page, 1 ≤ page -> page * limit < keys.length ->
    keys[page * limit - 1]? ≠ keys[page * limit]?

def descendingKeys (rows : List Row) : List Key :=
  (rows.map key).insertionSort fun first second => second ≤ first

variable {key} {rows found : List Row} {limit : Nat} {keys : List Key}

theorem descendingKeys_eq (descends : Descending key rows found) :
    descendingKeys key rows = found.map key := by
  have ordered : (descendingKeys key rows).Pairwise fun first second => second ≤ first :=
    List.pairwise_insertionSort _ _
  have same : (descendingKeys key rows).Perm (found.map key) :=
    (List.perm_insertionSort _ _).trans (descends.perm.map key).symm
  exact same.eq_of_pairwise (fun _ _ _ _ first second => le_antisymm second first) ordered
    (List.pairwise_map.mpr descends.sorted)

omit [LinearOrder Key] in
theorem cleanBreaks_of_short (short : keys.length ≤ limit) : CleanBreaks limit keys := by
  intro page positive inside
  exact absurd (Nat.lt_of_lt_of_le inside short) (Nat.not_lt.mpr (Nat.le_mul_of_pos_left limit positive))

omit [LinearOrder Key] in
theorem cleanBreaks_iff (positive : 1 ≤ limit) (longer : limit < keys.length) :
    CleanBreaks limit keys <->
      keys[limit - 1]? ≠ keys[limit]? ∧ CleanBreaks limit (keys.drop limit) := by
  have shift {page : Nat} (first : 1 ≤ page) :
      (page + 1) * limit - 1 = limit + (page * limit - 1) ∧
        (page + 1) * limit = limit + page * limit := by
    have some_ : 1 ≤ page * limit := Nat.mul_pos first positive
    have whole : (page + 1) * limit = page * limit + limit := Nat.succ_mul page limit
    omega
  constructor
  · intro clean
    refine ⟨?_, fun page first inside => ?_⟩
    · have here := clean 1 (Nat.le_refl 1)
      rw [Nat.one_mul] at here
      exact here longer
    · rw [List.length_drop] at inside
      have later := clean (page + 1) (Nat.le_succ_of_le first)
      rw [(shift first).1, (shift first).2] at later
      rw [List.getElem?_drop, List.getElem?_drop]
      exact later (by omega)
  · rintro ⟨here, rest⟩ page first inside
    rcases Nat.eq_or_lt_of_le first with rfl | more
    · rw [Nat.one_mul]
      exact here
    · have earlier : 1 ≤ page - 1 := Nat.le_sub_one_of_lt more
      have same : page = page - 1 + 1 := (Nat.sub_add_cancel first).symm
      have later := rest (page - 1) earlier
      rw [List.length_drop, List.getElem?_drop, List.getElem?_drop] at later
      rw [same, (shift earlier).2] at inside
      rw [same, (shift earlier).1, (shift earlier).2]
      exact later (by omega)

/-! ## Down the table -/

variable {page : List Row} {last : Row}

theorem key_last_le (sorted : page.Pairwise fun row later => key later ≤ key row)
    (ends : page.getLast? = some last) : ∀ row ∈ page, key last ≤ key row := by
  rcases List.getLast?_eq_some_iff.mp ends with ⟨front, rfl⟩
  intro row member
  rcases List.mem_append.mp member with inFront | isLast
  · exact (List.pairwise_append.mp sorted).2.2 row inFront last (List.mem_singleton_self last)
  · rw [List.mem_singleton.mp isLast]

variable {rest : List Row}

theorem key_le_last {next : Row}
    (sorted : (page ++ next :: rest).Pairwise fun row later => key later ≤ key row)
    (ends : page.getLast? = some last) : key next ≤ key last :=
  (List.pairwise_append.mp sorted).2.2 last (List.mem_of_getLast? ends) next List.mem_cons_self

/-- What is below the last row of a page are the rows after the page, less
those with the key of the last row. -/
theorem below_last {before : Option Key}
    (descends : Descending key (below key before rows) (page ++ rest))
    (ends : page.getLast? = some last) :
    (below key (some (key last)) rows).Perm (rest.filter fun row => decide (key row < key last)) := by
  have ⟨pageSorted, _, _⟩ := List.pairwise_append.mp descends.sorted
  have inside : last ∈ below key before rows :=
    descends.perm.mem_iff.mp (List.mem_append_left _ (List.mem_of_getLast? ends))
  have bounded := of_decide_eq_true (List.mem_filter.mp inside).2
  have narrowed : below key (some (key last)) rows =
      (below key before rows).filter fun row => decide (key row < key last) := by
    unfold below
    rw [List.filter_filter]
    refine List.filter_congr fun row _ => Bool.eq_iff_iff.mpr ?_
    simp only [Bool.and_eq_true, decide_eq_true_eq, Option.mem_def, Option.some_inj, forall_eq']
    exact ⟨fun less => ⟨less, fun bound is => less.trans (bounded bound is)⟩, And.left⟩
  have none_ : page.filter (fun row => decide (key row < key last)) = [] :=
    List.filter_eq_nil_iff.mpr fun row member less =>
      absurd (of_decide_eq_true less) (not_lt.mpr (key_last_le pageSorted ends row member))
  rw [narrowed]
  refine (descends.perm.symm.filter _).trans ?_
  rw [List.filter_append, none_, List.nil_append]

/-- A page which does not hold everything has a last row and a row after it. -/
theorem exists_break (positive : 1 ≤ limit) (longer : limit < found.length) : ∃ page last next rest,
      found = page ++ next :: rest ∧ page.length = limit ∧ page.getLast? = some last := by
  have size : (found.take limit).length = limit := List.length_take_of_le (Nat.le_of_lt longer)
  cases ends : (found.take limit).getLast? with
  | none =>
    rw [List.getLast?_eq_none_iff.mp ends] at size
    exact absurd size (Nat.ne_of_lt positive)
  | some last =>
    refine ⟨found.take limit, last, found[limit], found.drop (limit + 1), ?_, size, ends⟩
    rw [List.getElem_cons_drop, List.take_append_drop]

omit [LinearOrder Key] in
/-- The first page ends cleanly if the next row has another key, and then the rest decides. -/
theorem cleanBreaks_append {next : Row} (positive : 1 ≤ limit)
    (size : page.length = limit) (ends : page.getLast? = some last) :
    CleanBreaks limit ((page ++ next :: rest).map key) <->
      key last ≠ key next ∧ CleanBreaks limit ((next :: rest).map key) := by
  have longer : limit < ((page ++ next :: rest).map key).length := by
    rw [List.length_map, List.length_append, size]
    exact Nat.lt_add_of_pos_right (Nat.succ_pos _)
  have inPage : limit - 1 < page.length := (Nat.sub_lt positive Nat.one_pos).trans_eq size.symm
  rw [cleanBreaks_iff positive longer, List.map_append, List.drop_left' ((List.length_map key).trans size),
    ← List.map_append, List.getElem?_map, List.getElem?_map, List.getElem?_append_left inPage,
    List.getElem?_append_right (Nat.le_of_eq size), size, Nat.sub_self, ← size,
    ← List.getLast?_eq_getElem?, ends, Option.map_some, List.getElem?_cons_zero, Option.map_some,
    ne_eq, ne_eq, Option.some_inj]

/-- The walk ends.  It shows no row more often than the table has it, and it
shows all of them exactly if its pages end between different keys. -/
theorem walkDown_spec {fetch : Nat -> Option Key -> List Row} (positive : 1 ≤ limit)
    (answers : ∀ query before, Descending key (below key before rows) (fetch query before)) :
    ∀ {fuel : Nat} (before : Option Key) (query : Nat), (below key before rows).length < fuel ->
      ∃ shown, walkDown key fetch limit fuel query before = some shown ∧
        shown.Subperm (below key before rows) ∧
        (shown.Pairwise fun row later => key later ≤ key row) ∧
        ((below key before rows).length ≤ shown.length <->
          CleanBreaks limit (descendingKeys key (below key before rows))) := by
  intro fuel
  induction fuel with
  | zero =>
    intro _ _ enough
    cases enough
  | succ fuel ih =>
    intro before query enough
    have descends := answers query before
    rw [descendingKeys_eq descends, ← descends.perm.length_eq]
    rw [← descends.perm.length_eq] at enough
    unfold walkDown
    split
    case isFalse short =>
      have short := Nat.not_lt.mp short
      rw [List.take_of_length_le short]
      refine ⟨_, rfl, descends.perm.subperm, descends.sorted, ?_⟩
      have clean := cleanBreaks_of_short ((List.length_map key).trans_le short)
      exact ⟨fun _ => clean, fun _ => Nat.le_refl _⟩
    case isTrue longer =>
      rcases exists_break positive longer with ⟨page, last, next, rest, isFound, size, ends⟩
      rw [isFound] at descends enough ⊢
      rw [List.take_left' size, ends]
      dsimp only
      have remaining := below_last descends ends
      have ⟨pageSorted, restSorted, _⟩ := List.pairwise_append.mp descends.sorted
      have nextFirst := List.pairwise_cons.mp restSorted
      have fewer : (below key (some (key last)) rows).length ≤ (next :: rest).length :=
        remaining.length_eq.trans_le (List.length_filter_le _ _)
      rw [List.length_append, size] at enough
      rcases ih (some (key last)) (query + 1) (by omega) with
        ⟨others, isOthers, contained, sorted, complete⟩
      rw [isOthers, cleanBreaks_append positive size ends]
      have later : ∀ row ∈ others, key row < key last := by
        intro row member
        have found := remaining.mem_iff.mp (contained.subset member)
        exact of_decide_eq_true (List.mem_filter.mp found).2
      refine ⟨page ++ others, rfl, ?_, ?_, ?_⟩
      · have inRest : others.Subperm (next :: rest) :=
          (contained.trans remaining.subperm).trans List.filter_sublist.subperm
        exact ((List.subperm_append_left page).mpr inRest).trans descends.perm.subperm
      · refine List.pairwise_append.mpr ⟨pageSorted, sorted, fun row inPage other inOthers => ?_⟩
        exact (later other inOthers).le.trans (key_last_le pageSorted ends row inPage)
      · rw [List.length_append, List.length_append, Nat.add_le_add_iff_left]
        by_cases same : key last = key next
        · refine iff_of_false (Nat.not_le.mpr ?_) fun clean => clean.1 same
          have dropped : (next :: rest).filter (fun row => decide (key row < key last)) =
              rest.filter fun row => decide (key row < key last) :=
            List.filter_cons_of_neg (p := fun row => decide (key row < key last)) fun less =>
              (of_decide_eq_true less).ne' same
          rw [dropped] at remaining
          calc others.length
              ≤ (below key (some (key last)) rows).length := contained.length_le
            _ ≤ rest.length := remaining.length_eq.trans_le (List.length_filter_le _ _)
            _ < (next :: rest).length := Nat.lt_succ_self _
        · have nextLower : key next < key last :=
            lt_of_le_of_ne (key_le_last descends.sorted ends) (Ne.symm same)
          have kept : (next :: rest).filter (fun row => decide (key row < key last)) = next :: rest := by
            refine List.filter_eq_self.mpr fun row member => decide_eq_true ?_
            rcases List.mem_cons.mp member with rfl | inRest
            · exact nextLower
            · exact (nextFirst.1 row inRest).trans_lt nextLower
          rw [kept] at remaining
          rw [remaining.length_eq, descendingKeys_eq ⟨remaining.symm, restSorted⟩] at complete
          exact complete.trans (and_iff_right same).symm

theorem above_picked {after : Option Key} {row : Row}
    (descends : Descending key (above key after rows) (page ++ rest)) (picked : row ∈ page) :
    (above key (some (key row)) rows).Perm (page.filter fun other => decide (key row < key other)) := by
  have inside : row ∈ above key after rows := descends.perm.mem_iff.mp (List.mem_append_left _ picked)
  have bounded := of_decide_eq_true (List.mem_filter.mp inside).2
  have narrowed : above key (some (key row)) rows =
      (above key after rows).filter fun other => decide (key row < key other) := by
    unfold above
    rw [List.filter_filter]
    refine List.filter_congr fun other _ => Bool.eq_iff_iff.mpr ?_
    simp only [Bool.and_eq_true, decide_eq_true_eq, Option.mem_def, Option.some_inj, forall_eq']
    exact ⟨fun less => ⟨less, fun bound is => (bounded bound is).trans less⟩, And.left⟩
  have none_ : rest.filter (fun other => decide (key row < key other)) = [] :=
    List.filter_eq_nil_iff.mpr fun other member less =>
      absurd (of_decide_eq_true less)
        (not_lt.mpr ((List.pairwise_append.mp descends.sorted).2.2 row picked other member))
  rw [narrowed]
  refine (descends.perm.symm.filter _).trans ?_
  rw [List.filter_append, none_, List.append_nil]

/-- The walk up ends with its second page at the latest, and so it reaches all
rows exactly if the first page holds them. -/
theorem walkUp_spec {fetch : Nat -> Option Key -> List Row} {pick : List Row -> Option Row}
    (positive : 1 ≤ limit) (distinct : rows.Nodup)
    (answers : ∀ query after, Descending key (above key after rows) (fetch query after))
    (picks : ∀ page ≠ [], ∃ row ∈ page, pick page = some row)
    (after : Option Key) (query fuel : Nat) :
    ∃ shown, walkUp key fetch pick limit (fuel + 2) query after = some shown ∧
      ((∀ row ∈ above key after rows, row ∈ shown) <-> (above key after rows).length ≤ limit) := by
  have descends := answers query after
  unfold walkUp
  split
  case isFalse short =>
    have short := Nat.not_lt.mp short
    rw [List.take_of_length_le short]
    refine ⟨_, rfl, iff_of_true (fun row => descends.perm.mem_iff.mpr) ?_⟩
    exact descends.perm.length_eq.ge.trans short
  case isTrue longer =>
    rcases exists_break positive longer with ⟨page, last, next, rest, isFound, size, ends⟩
    rw [← descends.perm.length_eq]
    rw [isFound] at descends longer ⊢
    have some_ : page ≠ [] := List.ne_nil_of_mem (List.mem_of_getLast? ends)
    rcases picks page some_ with ⟨row, picked, isPicked⟩
    rw [List.take_left' size, isPicked]
    dsimp only
    have above_ := (answers (query + 1) (some (key row))).perm.trans (above_picked descends picked)
    have fits : (fetch (query + 1) (some (key row))).length ≤ limit :=
      above_.length_eq.trans_le ((List.length_filter_le _ _).trans_eq size)
    have stops : walkUp key fetch pick limit (fuel + 1) (query + 1) (some (key row)) =
        some (fetch (query + 1) (some (key row))) := by
      unfold walkUp
      rw [if_neg (Nat.not_lt.mpr fits), List.take_of_length_le fits]
    rw [stops]
    refine ⟨_, rfl, iff_of_false (fun reaches => ?_) (Nat.not_le.mpr longer)⟩
    have inAbove : next ∈ above key after rows :=
      descends.perm.mem_iff.mp (List.mem_append_right _ List.mem_cons_self)
    have onPage : next ∈ page := by
      rcases List.mem_append.mp (reaches next inAbove) with onFirst | onSecond
      · exact onFirst
      · exact (List.mem_filter.mp (above_.mem_iff.mp onSecond)).1
    have once : (page ++ next :: rest).Nodup := descends.perm.nodup_iff.mpr (distinct.filter _)
    exact (List.nodup_append.mp once).2.2 next onPage next List.mem_cons_self rfl

end Execution
end BreadMind
