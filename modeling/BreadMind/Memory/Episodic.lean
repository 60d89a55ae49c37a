import Mathlib.Data.Finset.Basic
import Mathlib.Data.List.Sort
import Mathlib.Order.Defs.LinearOrder

namespace BreadMind
namespace Memory

/-!
# Episodic memory

Notes are kept in the order in which they came.  Each has a weight, which decays
from its last access on and grows with every access, and may be pinned.

The weights are floating point numbers: an arbitrary linear order with the few
operations the code applies to them.  The clock is read anew for each note, so a
reading is given for every identifier; nothing is assumed of the readings.  What
only reads the notes is not modelled.

Beside the notes stands a history of what was stored, pinned and replaced.  The
code keeps none.
-/

universe u

structure EpisodicNote (W : Type u) where
  id : Nat
  content : String
  keywords : List String
  tags : List String
  contextDescription : String
  linkedNoteIds : List Nat := []
  createdAt : Int
  updatedAt : Int
  decayWeight : W
  accessCount : Nat := 0
  lastAccessed : Option Int := none
  pinned : Bool := false

/-- The arithmetic of the weights: `1.0`, `min(1.0, w + 0.1)`, a score times a weight,
and the decay over some time after some accesses, which can overflow. -/
structure Scales (W : Type u) where
  full : W
  strengthened : W -> W
  scored : Nat -> W -> W
  decayed : Int -> Nat -> Option W

structure Replacement (W : Type u) where
  note : EpisodicNote W
  summaryId : Nat
  clusterName : String
  cluster : List (EpisodicNote W)

inductive NoteEvent (W : Type u) where
  | stored (noteId : Nat)
  | pinned (noteId : Nat)
  | replaced (replacement : Replacement W)

structure EpisodicMemory (W : Type u) where
  notes : List (EpisodicNote W) := []
  nextId : Nat := 1
  history : List (NoteEvent W) := []

def sliceTo {Item : Type u} (limit : Int) (items : List Item) : List Item :=
  if 0 ≤ limit then items.take limit.toNat else items.take (items.length - (-limit).toNat)

namespace EpisodicMemory

variable {W : Type u} (scales : Scales W) (memory : EpisodicMemory W)

def addNote (content : String) (keywords tags : List String) (contextDescription : String)
    (clock : Nat -> Int) : EpisodicMemory W where
  notes := memory.notes ++ [{
    id := memory.nextId
    content := content
    keywords := keywords
    tags := tags
    contextDescription := contextDescription
    createdAt := clock memory.nextId
    updatedAt := clock memory.nextId
    decayWeight := scales.full }]
  nextId := memory.nextId + 1
  history := memory.history ++ [.stored memory.nextId]

def changeNotes (picked : EpisodicNote W -> Bool) (change : EpisodicNote W -> EpisodicNote W) :
    EpisodicMemory W :=
  { memory with notes := memory.notes.map fun note => if picked note then change note else note }

def reinforce (clock : Nat -> Int) (note : EpisodicNote W) : EpisodicNote W :=
  { note with
    accessCount := note.accessCount + 1
    lastAccessed := some (clock note.id)
    decayWeight := scales.strengthened note.decayWeight }

variable (lower : String -> String) (keywords : List String)

def keywordScore (note : EpisodicNote W) : Nat :=
  keywords.countP fun keyword => decide (lower keyword ∈ note.keywords.map lower)

/-- The best notes, of equal ones the first. -/
def found [LinearOrder W] (limit : Int) : List (EpisodicNote W) :=
  sliceTo limit
    (((memory.notes.filter fun note => decide (0 < keywordScore lower keywords note)).insertionSort
      fun note other => scales.scored (keywordScore lower keywords other) other.decayWeight ≤
        scales.scored (keywordScore lower keywords note) note.decayWeight))

def searchByKeywords [LinearOrder W] (limit : Int) (clock : Nat -> Int) : EpisodicMemory W :=
  memory.changeNotes
    (fun note => decide (note.id ∈ (memory.found scales lower keywords limit).map EpisodicNote.id))
    (reinforce scales clock)

variable (noteId : Nat)

/-- An empty description and an empty list of keywords change nothing. -/
def updateNote (contextDescription : Option String)
    (keywords : Option (List String)) (clock : Nat -> Int) : EpisodicMemory W :=
  memory.changeNotes (fun note => decide (note.id = noteId)) fun note =>
    { note with
      contextDescription :=
        match contextDescription with
        | some text => if text = "" then note.contextDescription else text
        | none => note.contextDescription
      keywords :=
        match keywords with
        | some words => if words = [] then note.keywords else words
        | none => note.keywords
      updatedAt := clock noteId }

def linkTo (target : Nat) (note : EpisodicNote W) : EpisodicNote W :=
  if target ∈ note.linkedNoteIds then note
  else { note with linkedNoteIds := note.linkedNoteIds ++ [target] }

def linkNotes (noteIdA noteIdB : Nat) : EpisodicMemory W :=
  if noteIdA ∈ memory.notes.map EpisodicNote.id ∧ noteIdB ∈ memory.notes.map EpisodicNote.id then
    (memory.changeNotes (fun note => decide (note.id = noteIdA)) (linkTo noteIdB)).changeNotes
      (fun note => decide (note.id = noteIdB)) (linkTo noteIdA)
  else memory

def deleteNote : EpisodicMemory W :=
  { memory with notes := memory.notes.eraseP fun note => decide (note.id = noteId) }

def pinNote : EpisodicMemory W :=
  { memory.changeNotes (fun note => decide (note.id = noteId)) fun note => { note with pinned := true } with
    history :=
      if noteId ∈ memory.notes.map EpisodicNote.id then memory.history ++ [.pinned noteId]
      else memory.history }

/-- Pinned notes do not decay.  An overflow leaves the notes behind it as they are. -/
def decayed (now : Int) : List (EpisodicNote W) -> List (EpisodicNote W)
  | [] => []
  | note :: rest =>
    if note.pinned then { note with decayWeight := scales.full } :: decayed now rest
    else
      match scales.decayed (now - note.lastAccessed.getD note.createdAt) note.accessCount with
      | none => note :: rest
      | some weight => { note with decayWeight := weight } :: decayed now rest

def applyDecay (now : Int) : EpisodicMemory W :=
  { memory with notes := decayed scales now memory.notes }

def cleanupLowRelevance [LinearOrder W] (threshold : W) : EpisodicMemory W :=
  { memory with
    notes := memory.notes.filter fun note => note.pinned || decide (threshold ≤ note.decayWeight) }

end EpisodicMemory

end Memory
end BreadMind
