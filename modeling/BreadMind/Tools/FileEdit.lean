import BreadMind.Base.Values
import BreadMind.Text.Encoding
import BreadMind.Text.Occurrences

namespace BreadMind
namespace Tools
namespace FileEdit

open Text

/-!
# Replacing a text in a file

A file that was read before is read as text, one or all occurrences of a text are
replaced, and it is written anew.  What the file system does on the two occasions
comes with the call.
-/

/-- The files that were read, by their absolute paths. -/
structure Session where
  abspath : String -> String
  readFiles : List String

structure EditRequest where
  filePath : String
  oldString : List CodePoint
  newString : List CodePoint
  replaceAll : Bool := false

/-- Opening and reading: the bytes, an `OSError`, or an exception that is none. -/
inductive Reading where
  | content (bytes : List UInt8)
  | refused (message : String)
  | failed (error : PyError)

/-- Opening for writing, which empties the file, and writing: an `OSError` on
opening, one that comes later and leaves these bytes, or none. -/
inductive Writing where
  | refused (message : String)
  | cut (message : String) (remaining : List UInt8)
  | complete

abbrev Outcome := Except PyError String × Reading

namespace EditRequest

variable (request : EditRequest)

def unread : String :=
  "Error" ++ (": file_edit requires reading the file first. Use file_read on '" ++
    request.filePath ++ "' before editing.")

def readingFailed (message : String) : String := "Error" ++ (" reading file: " ++ message)

def identical : String := "Error" ++ ": old_string and new_string are identical."

def notFound : String := "Error" ++ (": old_string not found in " ++ request.filePath ++ ".")

def ambiguous (count : Nat) : String :=
  "Error" ++ (": old_string found " ++ toString count ++ " times in " ++ request.filePath ++
    ". Provide more context to make it unique, or set replace_all=True.")

def writingFailed (message : String) : String := "Error" ++ (" writing file: " ++ message)

def edited (replacements : Nat) : String :=
  "Successfully edited " ++ request.filePath ++ ": " ++ toString replacements ++
    " replacement(s) made."

def undecodable : PyError := .raised "UnicodeDecodeError" "'utf-8' codec can't decode"

def unencodable : PyError := .raised "UnicodeEncodeError" "'utf-8' codec can't encode"

variable (reading : Reading)

/-- Writing the new content.  A surrogate is met when the file is empty already. -/
def writeBack (writing : Writing) (replacements : Nat) (newContent : List CodePoint) : Outcome :=
  match writing with
  | .refused message => (.ok (writingFailed message), reading)
  | .cut message remaining =>
    if Writable newContent then (.ok (writingFailed message), .content remaining)
    else (.error unencodable, .content [])
  | .complete =>
    if Writable newContent then
      (.ok (request.edited replacements), .content (bytesOf newContent))
    else (.error unencodable, .content [])

def edit (writing : Writing) (content : List CodePoint) : Outcome :=
  if request.oldString = request.newString then (.ok identical, reading)
  else
    let count := occurrences request.oldString content
    if count = 0 then (.ok request.notFound, reading)
    else if request.replaceAll = false ∧ 1 < count then (.ok (request.ambiguous count), reading)
    else if request.replaceAll = true then
      request.writeBack reading writing count
        (replaceEvery request.oldString request.newString content)
    else
      request.writeBack reading writing 1
        (replaceFirst request.oldString request.newString content)

variable (session : Session)

def fileEdit (reading : Reading) (writing : Writing) : Outcome :=
  if session.abspath request.filePath ∉ session.readFiles then (.ok request.unread, reading)
  else
    match reading with
    | .refused message => (.ok (readingFailed message), reading)
    | .failed error => (.error error, reading)
    | .content bytes =>
      match decode bytes with
      | none => (.error undecodable, reading)
      | some text => request.edit reading writing (scalars (universal text))

/-- The old text stands in the text as often as the edit asks for, at overlapping
places too, and the new one can be written. -/
structure Due (text : List Char) : Prop where
  different : request.oldString ≠ request.newString
  writable : Writable request.newString
  every : request.replaceAll = true -> request.oldString <:+: scalars text
  once : request.replaceAll = false -> ∃ before after,
    Once request.oldString (scalars text) before after

/-- The parts of the text that stay: all gaps, or what is before and after the one place. -/
def Parts (text : List Char) (first : List CodePoint) (others : List (List CodePoint)) : Prop :=
  (request.replaceAll = true -> Cut request.oldString (scalars text) first others) ∧
    (request.replaceAll = false -> ∃ after, others = [after] ∧
      Once request.oldString (scalars text) first after)

/-- The file may be edited, and the text is due. -/
structure Editable (reading : Reading) (writing : Writing)
    (bytes : List UInt8) (text : List Char) : Prop where
  tracked : session.abspath request.filePath ∈ session.readFiles
  content : reading = .content bytes
  decoded : decode bytes = some text
  writes : writing = .complete
  due : request.Due text

variable (bytes : List UInt8)

/-- The bytes of the old text are replaced, and every other byte stays. -/
def Replaced (text : List Char) (outcome : Outcome) : Prop :=
  ∃ first others, request.Parts text first others ∧
    bytes = rejoin (bytesOf request.oldString) (bytesOf first) (others.map bytesOf) ∧
    outcome = (.ok (request.edited others.length),
      .content (rejoin (bytesOf request.newString) (bytesOf first) (others.map bytesOf)))

def Refused (outcome : Outcome) : Prop :=
  (∃ text, outcome.1 = .ok ("Error" ++ text)) ∧ outcome.2 = reading

/-- A file that may be edited is edited, and any other one is left with an error text. -/
def Right (reading : Reading) (writing : Writing) (outcome : Outcome) : Prop :=
  (∃ bytes text,
    request.Editable session reading writing bytes text ∧ request.Replaced bytes text outcome) ∨
  Not (∃ bytes text, request.Editable session reading writing bytes text) ∧
    Refused reading outcome

/-- The text as it is read has the old string once, or at all where all are replaced. -/
def Attempted (content : List CodePoint) : Prop :=
  request.oldString ≠ request.newString ∧ occurrences request.oldString content ≠ 0 ∧
    (request.replaceAll = false -> occurrences request.oldString content = 1)

/-- What is written does no harm. -/
def WriteSafe (text : List Char) : Writing -> Prop
  | .refused _ => True
  | .cut _ remaining => Writable request.newString ∧ remaining = bytes
  | .complete => Writable request.newString ∧ '\r' ∉ text ∧
      (request.replaceAll = false -> ∃ before after,
        Once request.oldString (scalars text) before after)

/-- The text is safe to be written back, if it is; else a text with carriage
returns is not one that should have been edited. -/
def TextSafe (text : List Char) (writing : Writing) : Prop :=
  (request.Attempted (scalars (universal text)) -> request.WriteSafe bytes text writing) ∧
    (Not (request.Attempted (scalars (universal text))) -> '\r' ∈ text -> writing = .complete ->
      Not (request.Due text))

def Safe (reading : Reading) (writing : Writing) : Prop :=
  session.abspath request.filePath ∈ session.readFiles ->
    match reading with
    | .refused _ => True
    | .failed _ => False
    | .content bytes => ∃ text,
      decode bytes = some text ∧ request.TextSafe bytes text writing

end EditRequest
end FileEdit
end Tools
end BreadMind
