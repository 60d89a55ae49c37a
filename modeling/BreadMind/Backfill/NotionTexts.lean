import BreadMind.Backfill.NotionBlocks

namespace BreadMind
namespace Backfill
namespace NotionBlocks

open Memory (isSpace)

/-!
# Which texts of a Notion page are rendered

The renderer follows a finite tree through all pages of its children and comes
to an end.  Of the letters of the texts within the depth limit it may lose
some, and puts the others in the order of the document; it loses none exactly
when no text stands below a block whose children it does not fetch.
-/

inductive BlockTree where
  | node (block : Block) (children : List BlockTree)

namespace BlockTree

def block : BlockTree -> Block
  | node block _ => block

def children : BlockTree -> List BlockTree
  | node _ children => children

end BlockTree

/-- The client lists these blocks from a cursor on, in one page or in several. -/
inductive Pages (client : Client) (id : String) : Option String -> List Block -> Prop where
  | last {cursor : Option String} {blocks : List Block} {next : Option String}
      (shows : client id cursor = ⟨blocks, false, next⟩) : Pages client id cursor blocks
  | more {cursor next : Option String} {first rest : List Block}
      (shows : client id cursor = ⟨first, true, next⟩) (later : Pages client id next rest) :
      Pages client id cursor (first ++ rest)

/-- The client shows these trees below a block; a block without the flag has no children. -/
inductive Served (client : Client) : String -> List BlockTree -> Prop where
  | mk {id : String} {trees : List BlockTree}
      (pages : Pages client id none (trees.map BlockTree.block))
      (leaf : ∀ tree ∈ trees, tree.block.hasChildren = false -> tree.children = [])
      (below : ∀ tree ∈ trees, tree.block.hasChildren = true ->
        Served client tree.block.id tree.children) : Served client id trees

/-! ## The tree itself rendered -/

mutual

def renderTree : BlockTree -> Nat -> Except Stop Rendered
  | .node block children, depth =>
    renderBlock (fun _ depth => finish depth (renderTrees children depth)) block depth

def renderTrees : List BlockTree -> Nat -> Except Stop Lines
  | [], _ => pure {}
  | tree :: rest, depth => do
    let rendered <- renderTree tree depth
    let others <- renderTrees rest depth
    pure (rendered.line.append others)

end

variable {block : Block}

theorem renderBlock_congr {first second : String -> Nat -> Except Stop Rendered}
    (same : block.hasChildren = true -> ∀ depth, first block.id depth = second block.id depth)
    (depth : Nat) : renderBlock first block depth = renderBlock second block depth := by
  have text : childrenText first block depth = childrenText second block depth := by
    unfold childrenText
    split
    case isTrue both => rw [same both.1]
    case isFalse => rfl
  have instead : childrenInstead first block depth = childrenInstead second block depth := by
    unfold childrenInstead
    split
    case isTrue both => rw [same both.1]
    case isFalse => rfl
  unfold renderBlock
  rw [text, instead]

variable {depth : Nat} {trees : List BlockTree}

theorem renderEach_eq {render : Block -> Except Stop Rendered}
    (each : ∀ tree ∈ trees, render tree.block = renderTree tree depth) :
    renderEach render (trees.map BlockTree.block) = renderTrees trees depth := by
  induction trees with
  | nil => rw [renderTrees]; rfl
  | cons tree rest ih =>
    rw [List.map_cons, renderEach, renderTrees, each tree List.mem_cons_self,
      ih fun other member => each other (List.mem_cons_of_mem _ member)]

theorem Lines.append_assoc (first second third : Lines) :
    (first.append second).append third = first.append (second.append third) := by
  unfold Lines.append
  rw [List.append_assoc, List.append_assoc]

theorem renderTrees_append (first second : List BlockTree) (depth : Nat) :
    renderTrees (first ++ second) depth = (renderTrees first depth).bind fun lines =>
        (renderTrees second depth).bind fun others => .ok (lines.append others) := by
  induction first with
  | nil =>
    rw [List.nil_append, renderTrees]
    cases renderTrees second depth with
    | error _ => rfl
    | ok others => rfl
  | cons tree rest ih =>
    rw [List.cons_append, renderTrees, ih, renderTrees]
    cases renderTree tree depth with
    | error _ => rfl
    | ok rendered =>
      cases renderTrees rest depth with
      | error _ => rfl
      | ok lines =>
        cases renderTrees second depth with
        | error _ => rfl
        | ok others => exact congrArg Except.ok (Lines.append_assoc _ _ _).symm

variable {client : Client}

theorem renderPages_eq {id : String} {cursor : Option String} {blocks : List Block}
    (pages : Pages client id cursor blocks) :
    ∃ bound, ∀ fuel, bound ≤ fuel -> ∀ render depth (trees : List BlockTree),
      blocks = trees.map BlockTree.block ->
      (∀ tree ∈ trees, render tree.block = renderTree tree depth) ->
      renderPages client render id fuel cursor = renderTrees trees depth := by
  induction pages with
  | last shows =>
    refine ⟨1, fun fuel enough render depth trees shown each => ?_⟩
    cases fuel with
    | zero => exact absurd enough (by decide)
    | succ fuel =>
      rw [renderPages, shows]
      dsimp only
      rw [shown, renderEach_eq each]
      cases renderTrees trees depth with
      | error _ => rfl
      | ok lines => rfl
  | @more cursor next first rest shows later ih =>
    rcases ih with ⟨bound, others⟩
    refine ⟨bound + 1, fun fuel enough render depth trees shown each => ?_⟩
    rcases List.map_eq_append_iff.1 shown.symm with ⟨front, behind, rfl, rfl, rfl⟩
    cases fuel with
    | zero => exact absurd enough (Nat.not_succ_le_zero bound)
    | succ fuel =>
      rw [renderPages, shows, renderTrees_append]
      dsimp only
      rw [renderEach_eq fun tree member => each tree (List.mem_append_left _ member),
        others fuel (Nat.le_of_succ_le_succ enough) render depth behind rfl
          fun tree member => each tree (List.mem_append_right _ member)]
      rfl

theorem exists_common_bound {Item : Type} {items : List Item} {holds : Item -> Nat -> Prop}
    (each : ∀ item ∈ items, ∃ bound, ∀ fuel, bound ≤ fuel -> holds item fuel) :
    ∃ bound, ∀ fuel, bound ≤ fuel -> ∀ item ∈ items, holds item fuel := by
  induction items with
  | nil => exact ⟨0, fun _ _ item member => absurd member List.not_mem_nil⟩
  | cons first rest ih =>
    rcases each first List.mem_cons_self with ⟨bound, here⟩
    rcases ih fun item member => each item (List.mem_cons_of_mem _ member) with
      ⟨later, others⟩
    refine ⟨max bound later, fun fuel enough item member => ?_⟩
    rcases List.mem_cons.1 member with rfl | behind
    · exact here fuel (Nat.le_trans (Nat.le_max_left _ _) enough)
    · exact others fuel (Nat.le_trans (Nat.le_max_right _ _) enough) item behind

theorem flattenBlocks_eq {id : String} (served : Served client id trees) :
    ∃ bound, ∀ fuel, bound ≤ fuel -> ∀ depth,
      flattenBlocks client fuel id depth = finish depth (renderTrees trees depth) := by
  induction served with
  | @mk id trees pages leaf below ih =>
    rcases renderPages_eq pages with ⟨paging, rendered⟩
    have children : ∃ bound, ∀ fuel, bound ≤ fuel -> ∀ tree ∈ trees,
        tree.block.hasChildren = true -> ∀ depth,
          flattenBlocks client fuel tree.block.id depth =
            finish depth (renderTrees tree.children depth) := by
      refine exists_common_bound fun tree member => ?_
      by_cases parent : tree.block.hasChildren = true
      · rcases ih tree member parent with ⟨bound, holds⟩
        exact ⟨bound, fun fuel enough _ => holds fuel enough⟩
      · exact ⟨0, fun _ _ child => absurd child parent⟩
    rcases children with ⟨nesting, children⟩
    refine ⟨max paging nesting + 1, fun fuel enough depth => ?_⟩
    cases fuel with
    | zero => exact absurd enough (Nat.not_succ_le_zero _)
    | succ fuel =>
      have more := Nat.le_of_succ_le_succ enough
      rw [flattenBlocks]
      congr 1
      refine rendered fuel (Nat.le_trans (Nat.le_max_left _ _) more) _ depth trees rfl ?_
      intro tree member
      have step : renderTree tree depth = renderBlock
          (fun _ depth => finish depth (renderTrees tree.children depth)) tree.block depth := by
        cases tree with
        | node block below => rw [renderTree]; rfl
      rw [step]
      exact renderBlock_congr (fun parent depth =>
        children fuel (Nat.le_trans (Nat.le_max_right _ _) more) tree member parent depth) depth

/-! ## The letters of the texts -/

/-- The letters that stand in the text of a block, in their order. -/
def inks (letters : List Letter) : List Letter :=
  letters.filter fun letter => letter.source.isSome

theorem inks_append (first second : List Letter) : inks (first ++ second) = inks first ++ inks second :=
  List.filter_append first second

@[simp] theorem inks_mark (text : String) : inks (mark text) = [] := by
  refine List.filter_eq_nil_iff.2 fun letter member => ?_
  rcases List.mem_map.1 member with ⟨char, _, rfl⟩
  exact Bool.false_ne_true

@[simp] theorem inks_indent (depth : Nat) : inks (indent depth) = [] := inks_mark _

@[simp] theorem inks_letters (block : Block) (text : String) :
    inks (block.letters text) = block.letters text := by
  refine List.filter_eq_self.2 fun letter member => ?_
  rcases List.mem_map.1 member with ⟨char, _, rfl⟩
  rfl

theorem inks_join (separator : String) (parts : List (List Letter)) :
    inks (join separator parts) = parts.flatMap inks := by
  induction parts with
  | nil => rfl
  | cons part rest ih =>
    cases rest with
    | nil => exact (List.append_nil _).symm
    | cons next others =>
      rw [join, inks_append, inks_append, inks_mark, List.append_nil, ih]
      rfl

theorem flatMap_inks_line (rendered : Rendered) :
    rendered.line.lines.flatMap inks = inks rendered.text := by
  unfold Rendered.line
  split
  case isTrue empty =>
    rw [List.isEmpty_iff.1 empty]
    rfl
  case isFalse => exact List.append_nil _

def blank (letter : Letter) : Bool := isSpace letter.char

/-- The text of a callout loses the white space at its end, and at its front if
there is no icon before it. -/
def calloutText (icon : String) (letters : List Letter) : List Letter :=
  if icon.toList.all isSpace = true then strip letters else letters.rdropWhile blank

variable {front : List Letter}

theorem inks_trimmed (plain : inks front = []) (keep : Letter -> Bool) :
    inks (front.dropWhile keep) = [] ∧ inks (front.rdropWhile keep) = [] := by
  have none_ := List.filter_eq_nil_iff.1 plain
  refine ⟨List.filter_eq_nil_iff.2 fun letter member => none_ letter ?_,
    List.filter_eq_nil_iff.2 fun letter member => none_ letter ?_⟩
  · exact (List.dropWhile_suffix keep).subset member
  · exact (List.rdropWhile_prefix keep front).subset member

theorem rdropWhile_append (keep : Letter -> Bool) (first second : List Letter) :
    (first ++ second).rdropWhile keep =
      if second.all keep = true then first.rdropWhile keep else first ++ second.rdropWhile keep := by
  unfold List.rdropWhile
  rw [List.reverse_append, List.dropWhile_append]
  have same : ((second.reverse.dropWhile keep).isEmpty = true) <-> second.all keep = true := by
    rw [List.isEmpty_iff, List.dropWhile_eq_nil_iff, List.all_eq_true]
    simp only [List.mem_reverse]
  by_cases empty : second.all keep = true
  · rw [if_pos empty, if_pos (same.2 empty)]
  · rw [if_neg empty, if_neg fun nothing => empty (same.1 nothing), List.reverse_append,
      List.reverse_reverse]

theorem inks_strip {own : List Letter} (plain : inks front = [])
    (text : ∀ part, part <:+: own -> inks part = part) : inks (strip (front ++ own)) =
      if front.all blank = true then strip own else own.rdropWhile blank := by
  have tail := text (own.rdropWhile blank) (List.rdropWhile_prefix blank own).isInfix
  unfold strip
  change inks (((front ++ own).dropWhile blank).rdropWhile blank) = _
  rw [List.dropWhile_append]
  by_cases nothing : front.all blank = true
  · have empty : front.dropWhile blank = [] :=
      List.dropWhile_eq_nil_iff.2 (List.all_eq_true.1 nothing)
    rw [if_pos nothing, empty]
    refine text _ ?_
    exact ((List.rdropWhile_prefix blank _).isInfix).trans (List.dropWhile_suffix blank).isInfix
  · have some_ : (front.dropWhile blank).isEmpty = false := by
      rw [Bool.eq_false_iff, Ne, List.isEmpty_iff, List.dropWhile_eq_nil_iff, ← List.all_eq_true]
      exact nothing
    rw [if_neg nothing, some_, if_neg Bool.false_ne_true, rdropWhile_append]
    have front_ := inks_trimmed plain blank
    split
    case isTrue bare =>
      rw [(inks_trimmed front_.1 blank).2]
      refine (List.rdropWhile_eq_nil_iff.2 fun letter member => ?_).symm
      exact List.all_eq_true.1 bare letter member
    case isFalse => rw [inks_append, front_.1, tail, List.nil_append]

/-! ## What is to be rendered -/

def Block.ownText (block : Block) : List Letter :=
  let text := fun richText => block.letters (extractRichText richText)
  match block.kind with
  | .paragraph richText | .quote richText | .heading _ richText | .bulletedListItem richText
  | .numberedListItem richText | .toDo _ richText | .code _ richText | .toggle richText =>
    text richText
  | .callout icon richText => calloutText (icon.getD "") (text richText)
  | .equation expression => block.letters expression
  | .file type name caption => block.letters (fileName type name caption)
  | .tableRow cells => cells.flatMap text
  | _ => []

/-- The level of the children of a block in the document.  Rows, columns and
synced blocks stand in the place of their block; a copy of a synced block, a
page of its own and an unknown block have no text here. -/
def BlockKind.childLevel (depth : Nat) : BlockKind -> Option Nat
  | .table | .columnList | .column | .syncedBlock true => some depth
  | .divider | .breadcrumb | .tableOfContents | .syncedBlock false | .childPage | .childDatabase
  | .other => none
  | _ => some (depth + 1)

/-- The renderer fetches the children of the block. -/
def BlockKind.Fetches : BlockKind -> Prop
  | .bulletedListItem _ | .numberedListItem _ | .toggle _ | .table | .columnList | .column
  | .syncedBlock true => True
  | _ => False

def BlockKind.NullIcon : BlockKind -> Prop
  | .callout none _ => True
  | _ => False

mutual

def wanted : BlockTree -> Nat -> List Letter
  | .node block children, depth =>
    block.ownText ++
      match block.kind.childLevel depth with
      | none => []
      | some level => if level < maxDepth then wantedAll children level else []

def wantedAll : List BlockTree -> Nat -> List Letter
  | [], _ => []
  | tree :: rest, depth => wanted tree depth ++ wantedAll rest depth

end

mutual

def Shown : BlockTree -> Nat -> Prop
  | .node block children, depth =>
    Not block.kind.NullIcon ∧
      match block.kind.childLevel depth with
      | none => True
      | some level => level < maxDepth ->
          (block.kind.Fetches -> ShownAll children level) ∧
            (Not block.kind.Fetches -> wantedAll children level = [])

def ShownAll : List BlockTree -> Nat -> Prop
  | [], _ => True
  | tree :: rest, depth => Shown tree depth ∧ ShownAll rest depth

end

section OneBlock

variable {recurse : String -> Nat -> Except Stop Rendered} {block : Block} {depth : Nat}

theorem calloutText_inks (icon : String) (text : String) :
    inks (strip (mark icon ++ mark " " ++ block.letters text)) =
      calloutText icon (block.letters text) := by
  rw [inks_strip]
  · have blanks : (mark icon ++ mark " ").all blank = icon.toList.all isSpace := by
      unfold mark
      rw [List.all_append, List.all_map, List.all_map]
      have space : List.all " ".toList (blank ∘ fun char => ⟨char, none⟩) = true := by decide
      rw [space, Bool.and_true]
      rfl
    rw [blanks, calloutText]
  · rw [inks_append, inks_mark, inks_mark, List.append_nil]
  · intro part inside
    refine List.filter_eq_self.2 fun letter member => ?_
    rcases List.mem_map.1 (inside.subset member) with ⟨char, _, rfl⟩
    rfl

theorem renderBlock_own (nullFree : Not block.kind.NullIcon) (alone : Not block.kind.Fetches) :
    ∃ rendered, renderBlock recurse block depth = .ok rendered ∧
      inks rendered.text = block.ownText := by
  unfold renderBlock Block.ownText
  cases kind : block.kind with
  | callout icon richText =>
    cases icon with
    | none =>
      rw [kind] at nullFree
      exact absurd trivial nullFree
    | some icon =>
      refine ⟨_, rfl, ?_⟩
      change inks (indent depth ++ strip _) = _
      rw [inks_append, inks_indent, List.nil_append, calloutText_inks]
      rfl
  | tableRow cells =>
    refine ⟨_, rfl, ?_⟩
    change inks (indent depth ++ mark "| " ++ join " | " _ ++ mark " |") = _
    simp only [inks_append, inks_indent, inks_mark, List.nil_append, List.append_nil, inks_join,
      List.flatMap_map, inks_letters]
  | bulletedListItem richText | numberedListItem richText | toggle richText | table | columnList
  | column => rw [kind] at alone; exact absurd trivial alone
  | syncedBlock original =>
    cases original with
    | true => rw [kind] at alone; exact absurd trivial alone
    | false => exact ⟨_, rfl, rfl⟩
  | divider | breadcrumb | tableOfContents | childPage | childDatabase | other =>
    exact ⟨_, rfl, rfl⟩
  | paragraph richText =>
    refine ⟨_, rfl, ?_⟩
    simp only [Rendered.of, inks_append, inks_indent, inks_letters, List.nil_append]
  | _ =>
    refine ⟨_, rfl, ?_⟩
    simp only [Rendered.of, inks_append, inks_indent, inks_mark, inks_letters, List.nil_append,
      List.append_nil]

theorem childrenText_eq : childrenText recurse block depth =
    if block.hasChildren = true ∧ depth < maxDepth then
      (recurse block.id (depth + 1)).map fun below => { below with text := mark "\n" ++ below.text }
    else .ok {} := by
  unfold childrenText
  split
  case isTrue =>
    cases recurse block.id (depth + 1) with
    | error _ => rfl
    | ok below => rfl
  case isFalse => rfl

theorem item_eq {own : List Letter} {item : Rendered -> Rendered}
    (text : ∀ children, inks (item children).text = own ++ inks children.text) :
    ∃ alone around, inks (Rendered.text alone) = own ∧
      (∀ below : Rendered, inks (Rendered.text (around below)) = own ++ inks below.text) ∧
      (childrenText recurse block depth).map item =
        if block.hasChildren = true ∧ depth < maxDepth then
          (recurse block.id (depth + 1)).map around else .ok alone := by
  refine ⟨item {}, fun below => item { below with text := mark "\n" ++ below.text }, ?_, ?_, ?_⟩
  · rw [text]
    exact List.append_nil own
  · intro below
    rw [text, inks_append, inks_mark, List.nil_append]
  · rw [childrenText_eq]
    split
    case isTrue =>
      cases recurse block.id (depth + 1) with
      | error _ => rfl
      | ok below => rfl
    case isFalse => rfl

theorem renderBlock_fetches (fetches : block.kind.Fetches) :
    ∃ level, block.kind.childLevel depth = some level ∧
      ∃ alone around, inks (Rendered.text alone) = block.ownText ∧ (∀ below : Rendered,
          inks (Rendered.text (around below)) = block.ownText ++ inks below.text) ∧
        renderBlock recurse block depth = if block.hasChildren = true ∧ depth < maxDepth then
            (recurse block.id level).map around else .ok alone := by
  have instead : ∃ alone around, inks (Rendered.text alone) = [] ∧
      (∀ below : Rendered, inks (Rendered.text (around below)) = [] ++ inks below.text) ∧
      childrenInstead recurse block depth =
        if block.hasChildren = true ∧ depth < maxDepth then
          (recurse block.id depth).map around else .ok alone := by
    refine ⟨{}, id, rfl, fun _ => rfl, ?_⟩
    unfold childrenInstead
    split
    case isTrue =>
      cases recurse block.id depth with
      | error _ => rfl
      | ok below => rfl
    case isFalse => rfl
  unfold renderBlock Block.ownText
  cases kind : block.kind with
  | bulletedListItem richText | numberedListItem richText =>
    refine ⟨depth + 1, rfl, item_eq fun children => ?_⟩
    simp only [inks_append, inks_indent, inks_mark, inks_letters, List.nil_append]
  | toggle richText =>
    refine ⟨depth + 1, rfl, item_eq fun children => ?_⟩
    simp only [inks_append, inks_indent, inks_letters, List.nil_append]
  | table | columnList | column => exact ⟨depth, rfl, instead⟩
  | syncedBlock original =>
    cases original with
    | true => exact ⟨depth, rfl, instead⟩
    | false => rw [kind] at fetches; exact absurd fetches not_false
  | _ => rw [kind] at fetches; exact absurd fetches not_false

end OneBlock

def Truthful (ran : Except Stop (List Letter)) (expected : List Letter) (shown : Prop) : Prop :=
  match ran with
  | .error stop => stop = .attributeError ∧ Not shown
  | .ok letters => letters.Sublist expected ∧ (letters = expected <-> shown)

theorem sublist_append_eq {first second behind : List Letter} (before : first.Sublist front)
    (after : second.Sublist behind) :
    first ++ second = front ++ behind <-> first = front ∧ second = behind := by
  refine ⟨fun same => ?_, fun both => by rw [both.1, both.2]⟩
  have lengths := congrArg List.length same
  rw [List.length_append, List.length_append] at lengths
  have shorter := before.length_le
  have shorter_ := after.length_le
  exact ⟨before.eq_of_length (by omega), after.eq_of_length (by omega)⟩

theorem Truthful.append {first second : List Letter} {behind : List Letter} {here there : Prop}
    (before : Truthful (.ok first) front here) (after : Truthful (.ok second) behind there) :
    Truthful (.ok (first ++ second)) (front ++ behind) (here ∧ there) :=
  ⟨before.1.append after.1, (sublist_append_eq before.1 after.1).trans (and_congr before.2 after.2)⟩

def treesInks (trees : List BlockTree) (depth : Nat) : Except Stop (List Letter) :=
  (renderTrees trees depth).map fun lines => lines.lines.flatMap inks

def treeInks (tree : BlockTree) (depth : Nat) : Except Stop (List Letter) :=
  (renderTree tree depth).map fun rendered => inks rendered.text

theorem finish_inks (lines : Except Stop Lines) (depth : Nat) :
    (finish depth lines).map (fun rendered => inks rendered.text) =
      if maxDepth ≤ depth then .ok [] else lines.map fun lines => lines.lines.flatMap inks := by
  unfold finish
  split
  case isTrue => exact congrArg Except.ok (inks_mark _)
  case isFalse =>
    cases lines with
    | error _ => rfl
    | ok lines => exact congrArg Except.ok (inks_join _ _)

theorem finish_truthful {children : List BlockTree} {level : Nat} (kids : level < maxDepth ->
      Truthful (treesInks children level) (wantedAll children level) (ShownAll children level)) :
    Truthful ((finish level (renderTrees children level)).map fun rendered => inks rendered.text)
      (if level < maxDepth then wantedAll children level else [])
      (level < maxDepth -> ShownAll children level) := by
  rw [finish_inks]
  by_cases deep : maxDepth ≤ level
  · have outside : Not (level < maxDepth) := Nat.not_lt.2 deep
    rw [if_pos deep, if_neg outside]
    exact ⟨List.Sublist.refl _, fun _ inside => absurd inside outside, fun _ => rfl⟩
  · have inside : level < maxDepth := Nat.not_le.1 deep
    rw [if_neg deep, if_pos inside]
    have same : (level < maxDepth -> ShownAll children level) = ShownAll children level :=
      propext ⟨fun holds => holds inside, fun holds _ => holds⟩
    rw [same]
    exact kids inside

theorem renderBlock_nullIcon {recurse : String -> Nat -> Except Stop Rendered}
    (null : block.kind.NullIcon) (depth : Nat) :
    renderBlock recurse block depth = .error .attributeError := by
  unfold renderBlock
  cases kind : block.kind with
  | callout icon richText =>
    cases icon with
    | none => rfl
    | some icon => rw [kind] at null; exact absurd null not_false
  | _ => rw [kind] at null; exact absurd null not_false

theorem tree_truthful {children : List BlockTree}
    (shallow : depth < maxDepth) (leaf : block.hasChildren = false -> children = [])
    (kids : ∀ level < maxDepth,
      Truthful (treesInks children level) (wantedAll children level) (ShownAll children level)) :
    Truthful (treeInks (.node block children) depth) (wanted (.node block children) depth)
      (Shown (.node block children) depth) := by
  unfold treeInks
  rw [renderTree, wanted, Shown]
  by_cases null : block.kind.NullIcon
  · rw [renderBlock_nullIcon null]
    exact ⟨rfl, fun shown => shown.1 null⟩
  by_cases fetches : block.kind.Fetches
  · rcases @renderBlock_fetches (fun _ depth => finish depth (renderTrees children depth)) block depth
      fetches with ⟨level, child, alone, around, own, text, step⟩
    rw [child, step]
    dsimp only
    have kids := finish_truthful (kids level)
    by_cases parent : block.hasChildren = true
    · rw [if_pos ⟨parent, shallow⟩]
      cases below : finish level (renderTrees children level) with
      | error stop =>
        rw [below] at kids
        exact ⟨kids.1, fun shown => kids.2 fun inside => (shown.2 inside).1 fetches⟩
      | ok rendered =>
        rw [below] at kids
        change Truthful (.ok (inks (around rendered).text)) _ _
        rw [text]
        have own : Truthful (.ok block.ownText) block.ownText (Not block.kind.NullIcon) :=
          ⟨List.Sublist.refl _, fun _ => null, fun _ => rfl⟩
        have both := own.append kids
        refine ⟨both.1, both.2.trans (and_congr_right fun _ => forall_congr' fun inside => ?_)⟩
        exact ⟨fun shown => ⟨fun _ => shown, fun alone => absurd fetches alone⟩,
          fun shown => shown.1 fetches⟩
    · rw [if_neg fun both => parent both.1]
      rw [leaf (Bool.eq_false_iff.2 parent), wantedAll, ShownAll, ite_self]
      change Truthful (.ok (inks alone.text)) _ _
      rw [own, List.append_nil]
      have shown : level < maxDepth -> (block.kind.Fetches -> True) ∧
          (Not block.kind.Fetches -> ([] : List Letter) = []) :=
        fun _ => ⟨fun _ => trivial, fun _ => rfl⟩
      exact ⟨List.Sublist.refl _, fun _ => ⟨null, shown⟩, fun _ => rfl⟩
  · rcases @renderBlock_own (fun _ depth => finish depth (renderTrees children depth)) block depth
      null fetches with ⟨rendered, step, own⟩
    rw [step]
    change Truthful (.ok (inks rendered.text)) _ _
    rw [own]
    refine ⟨List.sublist_append_left _ _, List.self_eq_append_right.trans ?_⟩
    cases block.kind.childLevel depth with
    | none => exact ⟨fun _ => ⟨null, trivial⟩, fun _ => rfl⟩
    | some level =>
      dsimp only
      by_cases inside : level < maxDepth
      · rw [if_pos inside]
        exact ⟨fun nothing => ⟨null, fun _ => ⟨fun yes => absurd yes fetches, fun _ => nothing⟩⟩,
          fun shown => (shown.2 inside).2 fetches⟩
      · rw [if_neg inside]
        exact ⟨fun _ => ⟨null, fun yes => absurd yes inside⟩, fun _ => rfl⟩

theorem trees_truthful (each : ∀ tree ∈ trees,
      Truthful (treeInks tree depth) (wanted tree depth) (Shown tree depth)) :
    Truthful (treesInks trees depth) (wantedAll trees depth) (ShownAll trees depth) := by
  induction trees with
  | nil =>
    unfold treesInks
    rw [renderTrees, wantedAll, ShownAll]
    exact ⟨List.Sublist.refl _, fun _ => trivial, fun _ => rfl⟩
  | cons tree rest ih =>
    have here := each tree List.mem_cons_self
    have there := ih fun other member => each other (List.mem_cons_of_mem _ member)
    unfold treesInks treeInks at *
    rw [renderTrees, wantedAll, ShownAll]
    cases first : renderTree tree depth with
    | error stop =>
      rw [first] at here
      exact ⟨here.1, fun shown => here.2 shown.1⟩
    | ok rendered =>
      rw [first] at here
      cases others : renderTrees rest depth with
      | error stop =>
        rw [others] at there
        exact ⟨there.1, fun shown => there.2 shown.2⟩
      | ok lines =>
        rw [others] at there
        change Truthful (.ok ((rendered.line.lines ++ lines.lines).flatMap inks)) _ _
        rw [List.flatMap_append, flatMap_inks_line]
        exact Truthful.append here there

theorem served_truthful {id : String} (served : Served client id trees) : ∀ depth < maxDepth,
      Truthful (treesInks trees depth) (wantedAll trees depth) (ShownAll trees depth) := by
  induction served with
  | @mk id trees pages leaf below ih =>
    intro depth shallow
    refine trees_truthful fun tree member => ?_
    cases tree with
    | node block children =>
      refine tree_truthful shallow (leaf _ member) fun level inside => ?_
      by_cases parent : block.hasChildren = true
      · exact ih _ member parent level inside
      · have none_ : children = [] := leaf _ member (Bool.eq_false_iff.2 parent)
        rw [none_]
        exact trees_truthful fun tree member => absurd member List.not_mem_nil

/-- For every finite tree the renderer comes to an end. It gives every text within the
depth limit once and in order exactly if no callout has a null for its icon and no
text stands below a block whose children are not fetched. -/
theorem flattenBlocks_all_texts {client : Client} {id : String} {trees : List BlockTree}
    (served : Served client id trees) : ∃ bound, ∀ fuel, bound ≤ fuel ->
      flattenBlocks client fuel id 0 ≠ .error .exhausted ∧
      ((∃ out, flattenBlocks client fuel id 0 = .ok out ∧
        inks out.text = wantedAll trees 0) <-> ShownAll trees 0) := by
  rcases flattenBlocks_eq served with ⟨bound, same⟩
  refine ⟨bound, fun fuel enough => ?_⟩
  have truthful := @finish_truthful trees 0 fun inside => served_truthful served 0 inside
  rw [← same fuel enough 0, if_pos (by decide)] at truthful
  have within : (0 < maxDepth -> ShownAll trees 0) <-> ShownAll trees 0 :=
    ⟨fun holds => holds (by decide), fun holds _ => holds⟩
  cases ran : flattenBlocks client fuel id 0 with
  | error stop =>
    rw [ran] at truthful
    refine ⟨fun spent => ?_, fun given => ?_, fun shown => ?_⟩
    · have null : stop = .attributeError := truthful.1
      rw [null] at spent
      exact absurd spent (by simp)
    · rcases given with ⟨out, nothing, _⟩
      exact absurd nothing (by simp)
    · exact absurd (within.2 shown) truthful.2
  | ok out =>
    rw [ran] at truthful
    refine ⟨by simp, fun given => ?_, fun shown => ⟨out, rfl, truthful.2.2 (within.2 shown)⟩⟩
    rcases given with ⟨other, same, complete⟩
    rw [← Except.ok.inj same] at complete
    exact within.1 (truthful.2.1 complete)

def itemClient : Client
  | "page", none => ⟨[⟨"first", .paragraph ["a"], false⟩], true, some "second page"⟩
  | "page", some _ => ⟨[⟨"item", .bulletedListItem ["b"], true⟩], false, none⟩
  | "item", _ => ⟨[⟨"below", .paragraph ["c"], false⟩], false, none⟩
  | _, _ => ⟨[], false, none⟩

def itemTrees : List BlockTree :=
  [.node ⟨"first", .paragraph ["a"], false⟩ [],
    .node ⟨"item", .bulletedListItem ["b"], true⟩ [.node ⟨"below", .paragraph ["c"], false⟩ []]]

theorem itemTrees_served : Served itemClient "page" itemTrees := by
  refine .mk (@Pages.more itemClient "page" none (some "second page")
    [⟨"first", .paragraph ["a"], false⟩] [⟨"item", .bulletedListItem ["b"], true⟩] rfl (.last rfl)) ?_ ?_
  · intro tree member leaf
    simp only [itemTrees, List.mem_cons, List.not_mem_nil, or_false] at member
    rcases member with rfl | rfl
    · rfl
    · exact absurd leaf (by decide)
  · intro tree member parent
    simp only [itemTrees, List.mem_cons, List.not_mem_nil, or_false] at member
    rcases member with rfl | rfl
    · exact absurd parent (by decide)
    · refine .mk (.last rfl) ?_ ?_
      · intro tree member _
        rw [List.mem_singleton.1 member]
        rfl
      · intro tree member parent
        rw [List.mem_singleton.1 member] at parent
        exact absurd parent (by decide)

theorem flattenBlocks_all_texts_item : ∃ bound, ∀ fuel, bound ≤ fuel ->
      flattenBlocks itemClient fuel "page" 0 ≠ .error .exhausted ∧
      ((∃ out, flattenBlocks itemClient fuel "page" 0 = .ok out ∧
        inks out.text = wantedAll itemTrees 0) <-> ShownAll itemTrees 0) :=
  flattenBlocks_all_texts itemTrees_served

def nestedClient : Client
  | "page", _ => ⟨[⟨"outer", .paragraph ["a"], true⟩], false, none⟩
  | "outer", _ => ⟨[⟨"inner", .paragraph ["b"], false⟩], false, none⟩
  | _, _ => ⟨[], false, none⟩

def nestedTrees : List BlockTree :=
  [.node ⟨"outer", .paragraph ["a"], true⟩ [.node ⟨"inner", .paragraph ["b"], false⟩ []]]

theorem nestedTrees_served : Served nestedClient "page" nestedTrees := by
  refine .mk (.last rfl) ?_ ?_
  · intro tree member leaf
    rw [List.mem_singleton.1 member] at leaf
    exact absurd leaf (by decide)
  · intro tree member _
    rw [List.mem_singleton.1 member]
    refine .mk (.last rfl) ?_ ?_
    · intro tree member _
      rw [List.mem_singleton.1 member]
      rfl
    · intro tree member parent
      rw [List.mem_singleton.1 member] at parent
      exact absurd parent (by decide)

theorem nested_paragraph_lost : Served nestedClient "page" nestedTrees ∧ ∀ fuel,
      Not (∃ out, flattenBlocks nestedClient fuel "page" 0 = .ok out ∧
        inks out.text = wantedAll nestedTrees 0) := by
  refine ⟨nestedTrees_served, fun fuel given => ?_⟩
  rcases given with ⟨out, ran, complete⟩
  cases fuel with
  | zero => exact nomatch ran
  | succ fuel =>
    cases fuel with
    | zero => exact nomatch ran
    | succ fuel =>
      have outer : flattenBlocks nestedClient (fuel + 2) "page" 0 =
          .ok ⟨[⟨'a', some "outer"⟩], []⟩ := rfl
      rw [outer] at ran
      rw [← Except.ok.inj ran] at complete
      exact absurd complete (by decide)

end NotionBlocks
end Backfill
end BreadMind
