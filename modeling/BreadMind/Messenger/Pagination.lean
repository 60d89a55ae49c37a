import BreadMind.Messenger.MessageService
import BreadMind.Execution.Paging

namespace BreadMind
namespace Messenger

open Execution

/-!
# Reading a channel page by page

`list_messages` bounds a page by time stamps only, and it lists the newest
messages first in either direction.  A signed cursor of time stamp and identifier
exists beside it, but the endpoint takes bare time stamps.

Messages of one time stamp come in the order of the scan, and each query may scan
the table in another order.
-/

variable (scan : Nat -> Database) (channelId : UUID) (limit : Nat)

/-- Follow the pages back: the next query is for what is before the last row. -/
def pagesBack : Nat -> Nat -> Option Timestamp -> Option (List MessageRow)
  | 0, _, _ => none
  | fuel + 1, query, before =>
    let (page, hasMore) := listMessages (scan query) channelId before none limit
    if hasMore then
      match page.getLast? with
      | none => none
      | some last => (pagesBack fuel (query + 1) (some last.createdAt)).map fun rest => page ++ rest
    else some page

/-- Follow the pages forward: the next query is for what is after a row of the
page, whichever the client picks. -/
def pagesForward (pick : List MessageRow -> Option MessageRow) :
    Nat -> Nat -> Option Timestamp -> Option (List MessageRow)
  | 0, _, _ => none
  | fuel + 1, query, after =>
    let (page, hasMore) := listMessages (scan query) channelId none after limit
    if hasMore then
      match pick page with
      | none => none
      | some row => (pagesForward pick fuel (query + 1) (some row.createdAt)).map fun rest => page ++ rest
    else some page

variable (db : Database)

def history : List MessageRow :=
  (db.messages.filter (isListed channelId none none)).map StoredMessage.toMessageRow

variable (before after : Option Timestamp)

def answer : List MessageRow :=
  ((db.messages.filter (isListed channelId before after)).insertionSort
    fun row other => other.createdAt ≤ row.createdAt).map StoredMessage.toMessageRow

variable {scan channelId limit}

theorem listMessages_eq : listMessages db channelId before after limit =
      ((answer channelId db before after).take limit,
        decide (limit < (answer channelId db before after).length)) := by
  unfold listMessages answer
  dsimp only
  rw [List.take_take, Nat.min_eq_left (Nat.le_succ limit), List.map_take, List.length_take,
    List.length_map]
  refine congrArg (Prod.mk _) (decide_eq_decide.mpr ?_)
  rw [Nat.lt_min]
  exact and_iff_right (Nat.lt_succ_self limit)

theorem pagesBack_eq : ∀ (fuel query : Nat) (before : Option Timestamp),
    pagesBack scan channelId limit fuel query before =
      walkDown MessageRow.createdAt (fun query before => answer channelId (scan query) before none)
        limit fuel query before
  | 0, _, _ => rfl
  | fuel + 1, query, before => by
    unfold pagesBack walkDown
    rw [listMessages_eq]
    simp only [decide_eq_true_eq, pagesBack_eq fuel]
    refine if_congr Iff.rfl ?_ rfl
    split <;> rename_i isLast <;> rw [isLast]

theorem pagesForward_eq (pick : List MessageRow -> Option MessageRow) :
    ∀ (fuel query : Nat) (after : Option Timestamp),
    pagesForward scan channelId limit pick fuel query after =
      walkUp MessageRow.createdAt (fun query after => answer channelId (scan query) none after) pick
        limit fuel query after
  | 0, _, _ => rfl
  | fuel + 1, query, after => by
    unfold pagesForward walkUp
    rw [listMessages_eq]
    simp only [decide_eq_true_eq, pagesForward_eq pick fuel]
    refine if_congr Iff.rfl ?_ rfl
    split <;> rename_i isPicked <;> rw [isPicked]

theorem below_history : below MessageRow.createdAt before (history channelId db) =
      (db.messages.filter (isListed channelId before none)).map StoredMessage.toMessageRow := by
  unfold below history
  rw [List.filter_map, List.filter_filter]
  refine congrArg _ (List.filter_congr fun row _ => Bool.eq_iff_iff.mpr ?_)
  simp only [Function.comp, isListed, Bool.and_eq_true, decide_eq_true_eq, Option.mem_def, reduceCtorEq,
    false_implies, implies_true, and_true]
  exact ⟨fun ⟨bounded, here, kept, top⟩ => ⟨here, kept, top, bounded⟩,
    fun ⟨here, kept, top, bounded⟩ => ⟨bounded, here, kept, top⟩⟩

theorem above_history : above MessageRow.createdAt after (history channelId db) =
      (db.messages.filter (isListed channelId none after)).map StoredMessage.toMessageRow := by
  unfold above history
  rw [List.filter_map, List.filter_filter]
  refine congrArg _ (List.filter_congr fun row _ => Bool.eq_iff_iff.mpr ?_)
  simp only [Function.comp, isListed, Bool.and_eq_true, decide_eq_true_eq, Option.mem_def, reduceCtorEq,
    false_implies, implies_true, true_and]
  exact ⟨fun ⟨bounded, here, kept, top, _⟩ => ⟨here, kept, top, bounded⟩,
    fun ⟨here, kept, top, bounded⟩ => ⟨bounded, here, kept, top, trivial⟩⟩

theorem answer_perm : (answer channelId db before after).Perm
      ((db.messages.filter (isListed channelId before after)).map StoredMessage.toMessageRow) :=
  (List.perm_insertionSort _ _).map _

theorem answer_sorted :
    (answer channelId db before after).Pairwise fun row later => later.createdAt ≤ row.createdAt := by
  refine List.pairwise_map.mpr ?_
  have total : Std.Total fun row other : StoredMessage => other.createdAt ≤ row.createdAt :=
    ⟨fun row other => Nat.le_total other.createdAt row.createdAt⟩
  have transitive : IsTrans StoredMessage fun row other => other.createdAt ≤ row.createdAt :=
    ⟨fun _ _ _ first second => Nat.le_trans second first⟩
  exact List.pairwise_insertionSort _ _

theorem history_nodup : (history channelId db).Nodup := by
  unfold history
  refine List.pairwise_map.mpr ?_
  refine List.Pairwise.sublist List.filter_sublist (db.messagesById.imp ?_)
  intro row other free same
  exact free ⟨Option.some_ne_none _, congrArg (fun row : MessageRow => some row.id) same⟩

/-! ## Whole histories -/

section Static

variable {db : Database} (static : ∀ query, (scan query).messages.Perm db.messages)

include static

theorem descends_below (query : Nat) (before : Option Timestamp) :
    Descending MessageRow.createdAt (below MessageRow.createdAt before (history channelId db))
      (answer channelId (scan query) before none) := by
  refine ⟨?_, answer_sorted _ _ _⟩
  rw [below_history]
  exact (answer_perm _ _ _).trans (((static query).filter _).map _)

theorem descends_above (query : Nat) (after : Option Timestamp) :
    Descending MessageRow.createdAt (above MessageRow.createdAt after (history channelId db))
      (answer channelId (scan query) none after) := by
  refine ⟨?_, answer_sorted _ _ _⟩
  rw [above_history]
  exact (answer_perm _ _ _).trans (((static query).filter _).map _)

end Static

def newer (channelId : UUID) (db : Database) (cursor : Timestamp) : List MessageRow :=
  (history channelId db).filter fun row => cursor < row.createdAt

def timeline (channelId : UUID) (db : Database) : List Timestamp :=
  descendingKeys MessageRow.createdAt (history channelId db)

/-- The pages back show the whole history, newest first. -/
def ShowsHistory (channelId : UUID) (db : Database) (shown : Option (List MessageRow)) : Prop :=
  ∃ rows, shown = some rows ∧ rows.Perm (history channelId db) ∧
    rows.Pairwise fun row later => later.createdAt ≤ row.createdAt

/-- The pages forward show every message which is newer than the cursor. -/
def ReachesNewer (channelId : UUID) (db : Database) (cursor : Timestamp)
    (shown : Option (List MessageRow)) : Prop :=
  ∃ rows, shown = some rows ∧ ∀ row ∈ newer channelId db cursor, row ∈ rows

theorem showsHistory_iff {db : Database} {fuel : Nat} (positive : 1 ≤ limit)
    (static : ∀ query, (scan query).messages.Perm db.messages)
    (enough : (history channelId db).length < fuel) :
    ShowsHistory channelId db (pagesBack scan channelId limit fuel 0 none) <->
      CleanBreaks limit (timeline channelId db) := by
  have whole : below MessageRow.createdAt none (history channelId db) = history channelId db :=
    List.filter_eq_self.mpr fun _ _ => decide_eq_true fun _ none_ => nomatch none_
  rcases walkDown_spec positive (descends_below static) none 0 (whole ▸ enough) with
    ⟨rows, isShown, contained, sorted, complete⟩
  rw [whole] at contained complete
  rw [pagesBack_eq, isShown]
  refine Iff.trans ⟨?_, fun long => ?_⟩ complete
  · rintro ⟨others, same, all, _⟩
    cases same
    exact all.length_eq.ge
  · exact ⟨rows, rfl, contained.perm_of_length_le long, sorted⟩

theorem reachesNewer_iff {db : Database} {pick : List MessageRow -> Option MessageRow}
    (positive : 1 ≤ limit) (static : ∀ query, (scan query).messages.Perm db.messages)
    (picks : ∀ page ≠ [], ∃ row ∈ page, pick page = some row) (cursor : Timestamp) (fuel : Nat) :
    ReachesNewer channelId db cursor
        (pagesForward scan channelId limit pick (fuel + 2) 0 (some cursor)) <->
      (newer channelId db cursor).length ≤ limit := by
  have bounded : above MessageRow.createdAt (some cursor) (history channelId db) =
      newer channelId db cursor := by
    refine List.filter_congr fun row _ => decide_eq_decide.mpr ?_
    simp only [Option.mem_def, Option.some_inj, forall_eq']
  rcases walkUp_spec positive (history_nodup db) (descends_above static) picks
    (some cursor) 0 fuel with ⟨rows, isShown, complete⟩
  rw [bounded] at complete
  rw [pagesForward_eq, isShown]
  refine Iff.trans ⟨?_, fun all => ⟨rows, rfl, all⟩⟩ complete
  rintro ⟨others, same, all⟩
  cases same
  exact all

/-- Reading page by page shows every message exactly if no page ends between
messages of one time, and, forward, if the first page holds all. -/
theorem pages_complete_exactly {db : Database} {pick : List MessageRow -> Option MessageRow} {fuel : Nat}
    (positive : 1 ≤ limit) (static : ∀ query, (scan query).messages.Perm db.messages)
    (picks : ∀ page ≠ [], ∃ row ∈ page, pick page = some row)
    (enough : (history channelId db).length < fuel) (cursor : Timestamp) :
    ShowsHistory channelId db (pagesBack scan channelId limit (fuel + 2) 0 none) ∧
        ReachesNewer channelId db cursor
          (pagesForward scan channelId limit pick (fuel + 2) 0 (some cursor)) <->
      CleanBreaks limit (timeline channelId db) ∧ (newer channelId db cursor).length ≤ limit :=
  and_congr (showsHistory_iff positive static (enough.trans_le (Nat.le_add_right fuel 2)))
    (reachesNewer_iff positive static picks cursor fuel)

def remark (number : Nat) (createdAt : Timestamp) : StoredMessage where
  id := BitVec.ofNat 128 number
  workspaceId := 10
  channelId := 5
  authorId := 1
  parentId := none
  kind := .text
  text := some "hello"
  blocks := []
  createdAt := createdAt
  editedAt := none
  deletedAt := none
  tsSeq := number
  clientMsgId := none

def threeRemarks : Database where
  messages := [remark 1 100, remark 2 200, remark 3 300]
  usersById := by decide
  channelsById := channels_nil
  membersByPair := members_nil
  messagesById := by decide
  messagesBySequence := by decide
  messagesByClientMsgId := by decide

theorem pages_complete_threeRemarks :
    ShowsHistory 5 threeRemarks (pagesBack (fun _ => threeRemarks) 5 2 6 0 none) ∧
      ReachesNewer 5 threeRemarks 100
        (pagesForward (fun _ => threeRemarks) 5 2 List.getLast? 6 0 (some 100)) := by
  have oldest (page : List MessageRow) (some_ : page ≠ []) :
      ∃ row ∈ page, page.getLast? = some row :=
    ⟨page.getLast some_, List.getLast_mem some_, List.getLast?_eq_some_getLast some_⟩
  have enough : (history 5 threeRemarks).length < 4 := by decide
  refine (pages_complete_exactly (by decide) (fun _ => List.Perm.refl _) oldest enough 100).mpr
    ⟨?_, by decide⟩
  intro page first inside
  have inside : page * 2 < 3 := inside
  have only : page = 1 := by omega
  subst only
  decide

/-- Two messages of one time and a newer one. -/
def twoAtOnce : Database where
  messages := [remark 1 100, remark 2 100, remark 3 300]
  usersById := by decide
  channelsById := channels_nil
  membersByPair := members_nil
  messagesById := by decide
  messagesBySequence := by decide
  messagesByClientMsgId := by decide

/-- With pages of one message the pages back leave out a message of the
earlier time, and the pages forward end with the newest message. -/
theorem pages_miss_twin :
    Not (ShowsHistory 5 twoAtOnce (pagesBack (fun _ => twoAtOnce) 5 1 6 0 none)) ∧
      Not (ReachesNewer 5 twoAtOnce 50
        (pagesForward (fun _ => twoAtOnce) 5 1 List.getLast? 6 0 (some 50))) := by
  constructor
  · rintro ⟨rows, isShown, all, _⟩
    have back : pagesBack (fun _ => twoAtOnce) 5 1 6 0 none =
        some [(remark 3 300).toMessageRow, (remark 1 100).toMessageRow] := rfl
    cases back.symm.trans isShown
    exact absurd all.length_eq (by decide)
  · rintro ⟨rows, isShown, all⟩
    have forward : pagesForward (fun _ => twoAtOnce) 5 1 List.getLast? 6 0 (some 50) =
        some [(remark 3 300).toMessageRow] := rfl
    cases forward.symm.trans isShown
    have reached := all (remark 1 100).toMessageRow (List.mem_cons_self)
    have stamp := congrArg MessageRow.createdAt (List.mem_singleton.mp reached)
    exact absurd stamp (by decide)

end Messenger
end BreadMind
