import BreadMind.Execution.Dict
import BreadMind.Execution.Machine
import BreadMind.Memory.Episodic
import Mathlib.Data.Finset.Card
import Mathlib.Data.Finset.Lattice.Basic

namespace BreadMind
namespace Memory

open Execution

/-!
# Consolidation and the memory collector

Weak notes with common keywords are gathered into clusters, and a large enough
cluster is replaced by a pinned summary of it.  A cycle of the collector lets the
notes decay, removes the irrelevant ones, caps the number of notes, consolidates
what is left and refreshes the note on the environment.

How texts are brought to lower case and stripped, in which order the elements of a
set are listed and which overlap of keywords is large enough is left open, and so
is whether the calls to the knowledge graph return.
-/

universe u

/-- What is done with texts, and the list of a set of them. -/
structure Texts where
  lower : String -> String
  strip : String -> String
  arranged : List String -> List String

structure MemoryConsolidator where
  minClusterSize : Int := 3
  overlaps : Nat -> Nat -> Bool

section Clusters

variable {W : Type u} (texts : Texts) (consolidator : MemoryConsolidator)

def keywordSet (note : EpisodicNote W) : Finset String := (note.keywords.map texts.lower).toFinset

/-- A cluster as it grows, with its keywords and the notes assigned so far. -/
structure Gathering (W : Type u) where
  cluster : List (EpisodicNote W)
  keywords : Finset String
  assigned : Finset Nat

def gather (gathering : Gathering W) (note : EpisodicNote W) : Gathering W :=
  if note.id ∈ gathering.assigned then gathering
  else if keywordSet texts note = ∅ then gathering
  else if consolidator.overlaps (gathering.keywords ∩ keywordSet texts note).card
      (gathering.keywords ∪ keywordSet texts note).card then
    { cluster := gathering.cluster ++ [note]
      keywords := gathering.keywords ∪ keywordSet texts note
      assigned := insert note.id gathering.assigned }
  else gathering

structure Clustering (W : Type u) where
  clusters : Dict String (List (EpisodicNote W)) := []
  assigned : Finset Nat := ∅

/-- A later cluster takes the place of an earlier one of the same name. -/
def clusterFrom (sorted : List (EpisodicNote W)) (clustering : Clustering W) (note : EpisodicNote W) :
    Clustering W :=
  if note.id ∈ clustering.assigned then clustering
  else
    match note.keywords with
    | [] => clustering
    | first :: _ =>
      let gathering := sorted.foldl (gather texts consolidator)
        { cluster := [note]
          keywords := keywordSet texts note
          assigned := insert note.id clustering.assigned }
      { clusters := Dict.set (texts.lower first) gathering.cluster clustering.clusters
        assigned := gathering.assigned }

def clusterByKeywords [LinearOrder W] (notes : List (EpisodicNote W)) :
    Dict String (List (EpisodicNote W)) :=
  let sorted := notes.insertionSort fun note other => note.decayWeight ≤ other.decayWeight
  (sorted.foldl (clusterFrom texts consolidator sorted) {}).clusters

def summaryLines (cluster : List (EpisodicNote W)) : List String :=
  (cluster.map fun note => texts.strip note.content).foldl
    (fun lines line => if line ≠ "" ∧ line ∉ lines then lines ++ [line] else lines) []

def buildSummary (clusterName : String) (cluster : List (EpisodicNote W)) : String :=
  let lines := summaryLines texts cluster
  let header := "[Consolidated knowledge: " ++ clusterName ++ "] (" ++ toString cluster.length ++
    " episodes merged)"
  let body := String.intercalate "\n" ((lines.take 10).map fun line => "- " ++ line)
  let rest :=
    if 10 < lines.length then "\n  ... and " ++ toString (lines.length - 10) ++ " more entries" else ""
  header ++ "\n" ++ body ++ rest

def mergedKeywords (cluster : List (EpisodicNote W)) : List String :=
  (texts.arranged (cluster.flatMap EpisodicNote.keywords).dedup).take 20

end Clusters

namespace EpisodicMemory

variable {W : Type u} (scales : Scales W) (texts : Texts) (memory : EpisodicMemory W)

def replaceNote (replacement : Replacement W) : EpisodicMemory W :=
  { memory.deleteNote replacement.note.id with
    history :=
      if replacement.note.id ∈ memory.notes.map EpisodicNote.id then
        memory.history ++ [.replaced replacement]
      else memory.history }

/-- The summary is stored and pinned before the knowledge graph is asked. -/
def summarize (clock : Nat -> Int) (name : String) (cluster : List (EpisodicNote W)) :
    EpisodicMemory W :=
  (memory.addNote scales (buildSummary texts name cluster) (mergedKeywords texts cluster)
    ["consolidated", "cluster:" ++ name]
    ("Consolidated from " ++ toString cluster.length ++ " episodes") clock).pinNote memory.nextId

def replaceCluster (summaryId : Nat) (name : String) (cluster : List (EpisodicNote W)) :
    EpisodicMemory W :=
  cluster.foldl
    (fun memory note => memory.replaceNote ⟨note, summaryId, name, cluster⟩) memory

/-- The first call to the knowledge graph that raises ends the consolidation. -/
def consolidateClusters (consolidator : MemoryConsolidator) (clock : Nat -> Int)
    (knows : String -> Bool) :
    EpisodicMemory W -> Dict String (List (EpisodicNote W)) -> EpisodicMemory W
  | memory, [] => memory
  | memory, (name, cluster) :: rest =>
    if cluster.length < consolidator.minClusterSize then
      consolidateClusters consolidator clock knows memory rest
    else if knows name then
      consolidateClusters consolidator clock knows
        ((memory.summarize scales texts clock name cluster).replaceCluster memory.nextId name cluster)
        rest
    else memory.summarize scales texts clock name cluster

/-- The notes which are neither pinned nor strong. -/
def eligible [LinearOrder W] (weak : W) : List (EpisodicNote W) :=
  memory.notes.filter fun note => !note.pinned && decide (note.decayWeight < weak)

def consolidate [LinearOrder W] (weak : W) (consolidator : MemoryConsolidator)
    (clock : Nat -> Int) (knows : String -> Bool) : EpisodicMemory W :=
  if memory.notes.length < consolidator.minClusterSize then memory
  else if (memory.eligible weak).length < consolidator.minClusterSize then memory
  else consolidateClusters scales texts consolidator clock knows memory
    (clusterByKeywords texts consolidator (memory.eligible weak))

end EpisodicMemory

end Memory
end BreadMind
