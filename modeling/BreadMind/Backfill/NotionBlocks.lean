import Mathlib.Data.List.DropRight
import BreadMind.Memory.Compressor

namespace BreadMind
namespace Backfill
namespace NotionBlocks

open Memory (isSpace)

/-!
# The text of a Notion page

A page is a tree of blocks, whose children the client lists page by page.  The
tree is flattened to markdown; each kind of block decides by itself whether its
children are fetched.

Every letter of the output is kept with the block whose text it belongs to;
what the code returns are the letters.
-/

/-- A letter, and beside the code the block in whose text it stands. -/
structure Letter where
  char : Char
  source : Option String
  deriving DecidableEq

def mark (text : String) : List Letter :=
  text.toList.map fun char => ⟨char, none⟩

inductive FileType where
  | image
  | file
  | pdf
  | video
  | audio
  | bookmark

def FileType.text : FileType -> String
  | image => "image"
  | file => "file"
  | pdf => "pdf"
  | video => "video"
  | audio => "audio"
  | bookmark => "bookmark"

inductive HeadingLevel where
  | one
  | two
  | three

def HeadingLevel.value : HeadingLevel -> Nat
  | one => 1
  | two => 2
  | three => 3

/-- The type of a block with its data.  Rich text is the list of its plain
texts; a callout has an emoji, another icon (with no emoji) or a null. -/
inductive BlockKind where
  | paragraph (richText : List String)
  | quote (richText : List String)
  | callout (icon : Option String) (richText : List String)
  | heading (level : HeadingLevel) (richText : List String)
  | bulletedListItem (richText : List String)
  | numberedListItem (richText : List String)
  | toDo (checked : Bool) (richText : List String)
  | code (language : String) (richText : List String)
  | toggle (richText : List String)
  | equation (expression : String)
  | divider
  | breadcrumb
  | tableOfContents
  | file (type : FileType) (name : Option String) (caption : List String)
  | table
  | tableRow (cells : List (List String))
  | syncedBlock (original : Bool)
  | columnList
  | column
  | childPage
  | childDatabase
  | other

structure Block where
  id : String
  kind : BlockKind
  hasChildren : Bool := false

def Block.letters (block : Block) (text : String) : List Letter :=
  text.toList.map fun char => ⟨char, some block.id⟩

structure Response where
  results : List Block
  hasMore : Bool := false
  nextCursor : Option String := none

abbrev Client := String -> Option String -> Response

/-- What stops the renderer: the fuel of the model, or `None.get`. -/
inductive Stop where
  | exhausted
  | attributeError

structure Rendered where
  text : List Letter := []
  dbQueue : List String := []

def Rendered.of (text : List Letter) : Rendered := { text := text }

def maxDepth : Nat := 8

def depthTruncationMarker : String := "... [content truncated at depth limit]"

def extractRichText (richText : List String) : String := String.join richText

def indent (depth : Nat) : List Letter := mark (String.ofList (List.replicate (2 * depth) ' '))

def strip (letters : List Letter) : List Letter :=
  (letters.dropWhile fun letter => isSpace letter.char).rdropWhile fun letter => isSpace letter.char

/-- The caption of a file, or its name, or its type. -/
def fileName (type : FileType) (name : Option String) (caption : List String) : String :=
  if extractRichText caption = "" then name.getD type.text else extractRichText caption

def join (separator : String) : List (List Letter) -> List Letter
  | [] => []
  | [part] => part
  | part :: next :: rest => part ++ mark separator ++ join separator (next :: rest)

variable (recurse : String -> Nat -> Except Stop Rendered)

/-- The children of a list item or a toggle, one level deeper. -/
def childrenText (block : Block) (depth : Nat) : Except Stop Rendered :=
  if block.hasChildren = true ∧ depth < maxDepth then do
    let below <- recurse block.id (depth + 1)
    pure { below with text := mark "\n" ++ below.text }
  else pure {}

/-- The children of a table or of columns in the place of the block. -/
def childrenInstead (block : Block) (depth : Nat) : Except Stop Rendered :=
  if block.hasChildren = true ∧ depth < maxDepth then recurse block.id depth else pure {}

/-- `_render_block`, with the flattening of the children as a parameter. -/
def renderBlock (block : Block) (depth : Nat) : Except Stop Rendered :=
  let text := fun richText => block.letters (extractRichText richText)
  match block.kind with
  | .paragraph richText => pure (.of (indent depth ++ text richText))
  | .quote richText => pure (.of (indent depth ++ (mark "> " ++ text richText)))
  | .callout none _ => throw .attributeError
  | .callout (some icon) richText =>
    pure (.of (indent depth ++ strip (mark icon ++ mark " " ++ text richText)))
  | .heading level richText =>
    pure (.of (indent depth ++ mark (String.ofList (List.replicate level.value '#')) ++ mark " " ++
      text richText))
  | .bulletedListItem richText => do
    let children <- childrenText recurse block depth
    pure { children with
      text := indent depth ++ (mark "- " ++ text richText) ++ children.text }
  | .numberedListItem richText => do
    let children <- childrenText recurse block depth
    pure { children with
      text := indent depth ++ (mark "1. " ++ text richText) ++ children.text }
  | .toDo checked richText =>
    let checkbox := if checked = true then "[x]" else "[ ]"
    pure (.of (indent depth ++ (mark "- " ++ mark checkbox ++ mark " " ++ text richText)))
  | .code language richText =>
    pure (.of (indent depth ++
      (mark "```" ++ mark language ++ mark "\n" ++ text richText ++ mark "\n```")))
  | .toggle richText => do
    let children <- childrenText recurse block depth
    pure { children with text := indent depth ++ text richText ++ children.text }
  | .equation expression =>
    pure (.of (indent depth ++ (mark "$$" ++ block.letters expression ++ mark "$$")))
  | .divider | .breadcrumb | .tableOfContents => pure {}
  | .file type name caption =>
    pure (.of (indent depth ++
      (mark "[file: " ++ block.letters (fileName type name caption) ++ mark "]")))
  | .table => childrenInstead recurse block depth
  | .tableRow cells =>
    pure (.of (indent depth ++ mark "| " ++ join " | " (cells.map text) ++ mark " |"))
  | .syncedBlock original =>
    if original = true then childrenInstead recurse block depth else pure {}
  | .columnList | .column => childrenInstead recurse block depth
  | .childPage => pure {}
  | .childDatabase => pure { dbQueue := if block.id = "" then [] else [block.id] }
  | .other => pure {}

structure Lines where
  lines : List (List Letter) := []
  dbQueue : List String := []

def Lines.append (first second : Lines) : Lines :=
  ⟨first.lines ++ second.lines, first.dbQueue ++ second.dbQueue⟩

def Rendered.line (rendered : Rendered) : Lines :=
  ⟨if rendered.text.isEmpty then [] else [rendered.text], rendered.dbQueue⟩

def renderEach (render : Block -> Except Stop Rendered) : List Block -> Except Stop Lines
  | [] => pure {}
  | block :: rest => do
    let rendered <- render block
    let others <- renderEach render rest
    pure (rendered.line.append others)

def renderPages (client : Client) (render : Block -> Except Stop Rendered) (rootBlockId : String) :
    Nat -> Option String -> Except Stop Lines
  | 0, _ => throw .exhausted
  | fuel + 1, startCursor => do
    let response := client rootBlockId startCursor
    let lines <- renderEach render response.results
    if response.hasMore = true then do
      let others <- renderPages client render rootBlockId fuel response.nextCursor
      pure (lines.append others)
    else pure lines

def finish (depth : Nat) (lines : Except Stop Lines) : Except Stop Rendered :=
  if maxDepth ≤ depth then pure { text := mark (depthTruncationMarker ++ "\n") }
  else lines.map fun lines => { text := join "\n" lines.lines, dbQueue := lines.dbQueue }

def flattenBlocks (client : Client) : Nat -> String -> Nat -> Except Stop Rendered
  | 0, _, _ => throw .exhausted
  | fuel + 1, rootBlockId, depth =>
    finish depth (renderPages client
      (fun block => renderBlock (flattenBlocks client fuel) block depth) rootBlockId fuel none)

end NotionBlocks
end Backfill
end BreadMind
