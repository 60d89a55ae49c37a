import BreadMind.Memory.Consolidation

namespace BreadMind
namespace Memory

open Execution

/-!
# Pinned notes

A cycle of the collector is run on the notes as they are; what it does to the other
layers of the memory is not modelled.  Pinned notes are kept by every operation but
two: the deletion which names one, and the cap, which keeps the notes created last
whether or not older ones are pinned.

What becomes of a summary is what becomes of a pinned note.
-/

universe u

structure Scan where
  memoryText : String
  keywords : List String
  hostname : String

structure MemoryGC (W : Type u) where
  decayThreshold : W
  maxCachedNotes : Int := 500
  consolidationEnabled : Bool := true
  envRefreshEnabled : Bool := true
  envRefreshInterval : Int := 6

/-- What a cycle meets: how many there were before, what the clock shows, which calls
to the knowledge graph return and what the scan finds, if it does not raise. -/
structure Cycle where
  runNumber : Nat
  now : Int
  clock : Nat -> Int
  overlaps : Nat -> Nat -> Bool
  knows : String -> Bool
  scan : Option Scan

namespace EpisodicMemory

variable {W : Type u} (scales : Scales W) (texts : Texts) (memory : EpisodicMemory W)

def newestFirst (notes : List (EpisodicNote W)) : List (EpisodicNote W) :=
  notes.insertionSort fun note other => other.createdAt ≤ note.createdAt

def capNotes (maxCachedNotes : Int) : EpisodicMemory W :=
  if maxCachedNotes < memory.notes.length then
    { memory with notes := sliceTo maxCachedNotes (newestFirst memory.notes) }
  else memory

/-- The note of the last scan is replaced in place, with the pin it has. -/
def storeScan (clock : Nat -> Int) (scan : Scan) : EpisodicMemory W :=
  match memory.notes.find? fun note => decide ("env_scan" ∈ note.tags) with
  | some existing =>
    memory.changeNotes (fun note => decide (note.id = existing.id)) fun note =>
      { note with
        content := scan.memoryText
        keywords := scan.keywords
        contextDescription := "Environment scan of " ++ scan.hostname
        updatedAt := clock note.id }
  | none =>
    (memory.addNote scales scan.memoryText scan.keywords ["env_scan", "system_info", "pinned"]
      ("Environment scan of " ++ scan.hostname) clock).pinNote memory.nextId

variable (gc : MemoryGC W)

def relevant [LinearOrder W] (now : Int) : EpisodicMemory W :=
  (memory.applyDecay scales now).cleanupLowRelevance gc.decayThreshold

def consolidateIf [LinearOrder W] (weak : W) (cycle : Cycle) : EpisodicMemory W :=
  if gc.consolidationEnabled then
    memory.consolidate scales texts weak { overlaps := cycle.overlaps } cycle.clock cycle.knows
  else memory

/-- The first cycle scans nothing.  An interval of zero raises. -/
def refreshIf (cycle : Cycle) : EpisodicMemory W :=
  if gc.envRefreshEnabled ∧ 0 < cycle.runNumber ∧ gc.envRefreshInterval ≠ 0 ∧
      (cycle.runNumber : Int) % gc.envRefreshInterval = 0 then
    match cycle.scan with
    | some scan => memory.storeScan scales cycle.clock scan
    | none => memory
  else memory

def runOnce [LinearOrder W] (weak : W) (cycle : Cycle) : EpisodicMemory W :=
  ((((memory.relevant scales gc cycle.now).capNotes gc.maxCachedNotes).consolidateIf scales texts
    gc weak cycle).refreshIf scales gc cycle)

end EpisodicMemory

inductive MemoryInput (W : Type u) where
  | addNote (content : String) (keywords tags : List String) (contextDescription : String)
      (clock : Nat -> Int)
  | searchByKeywords (keywords : List String) (limit : Int) (clock : Nat -> Int)
  | updateNote (noteId : Nat) (contextDescription : Option String) (keywords : Option (List String))
      (clock : Nat -> Int)
  | linkNotes (noteIdA noteIdB : Nat)
  | deleteNote (noteId : Nat)
  | pinNote (noteId : Nat)
  | applyDecay (now : Int)
  | cleanupLowRelevance (threshold : W)
  | consolidate (consolidator : MemoryConsolidator) (clock : Nat -> Int) (knows : String -> Bool)
  | runOnce (gc : MemoryGC W) (cycle : Cycle)

variable {W : Type u}

def EpisodicMemory.step [LinearOrder W] (scales : Scales W) (texts : Texts) (weak : W)
    (memory : EpisodicMemory W) : MemoryInput W -> EpisodicMemory W
  | .addNote content keywords tags contextDescription clock =>
    memory.addNote scales content keywords tags contextDescription clock
  | .searchByKeywords keywords limit clock =>
    memory.searchByKeywords scales texts.lower keywords limit clock
  | .updateNote noteId contextDescription keywords clock =>
    memory.updateNote noteId contextDescription keywords clock
  | .linkNotes noteIdA noteIdB => memory.linkNotes noteIdA noteIdB
  | .deleteNote noteId => memory.deleteNote noteId
  | .pinNote noteId => memory.pinNote noteId
  | .applyDecay now => memory.applyDecay scales now
  | .cleanupLowRelevance threshold => memory.cleanupLowRelevance threshold
  | .consolidate consolidator clock knows =>
    memory.consolidate scales texts weak consolidator clock knows
  | .runOnce gc cycle => memory.runOnce scales texts gc weak cycle

def memoryMachine [LinearOrder W] (scales : Scales W) (texts : Texts) (weak : W) :
    Machine (EpisodicMemory W) (MemoryInput W) where
  initial := {}
  step := EpisodicMemory.step scales texts weak

def EpisodicMemory.HasPinned (memory : EpisodicMemory W) (noteId : Nat) : Prop :=
  ∃ note ∈ memory.notes, note.id = noteId ∧ note.pinned = true

/-- The notes that were pinned are in memory and pinned. -/
def EpisodicMemory.KeepsPinned (memory : EpisodicMemory W) : Prop :=
  ∀ noteId, .pinned noteId ∈ memory.history -> memory.HasPinned noteId

structure Recorded (history : List (NoteEvent W)) (replacement : Replacement W) : Prop where
  stored : .stored replacement.summaryId ∈ history
  pinned : .pinned replacement.summaryId ∈ history
  clustered : replacement.note ∈ replacement.cluster
  loose : replacement.note.pinned = false

/-- What was pinned is in memory, and every note that was replaced is represented by
a pinned summary, which was stored before. -/
structure Remembers (texts : Texts) (memory : EpisodicMemory W) : Prop where
  pinned : memory.KeepsPinned
  represented : ∀ before replacement after,
    memory.history = before ++ .replaced replacement :: after -> Recorded before replacement ∧
      ∃ summary ∈ memory.notes, summary.id = replacement.summaryId ∧
        summary.pinned = true ∧
          summary.content = buildSummary texts replacement.clusterName replacement.cluster

/-- No deletion names a pinned note, and the cap of a cycle leaves room for the
pinned ones. -/
def SparesPinned [LinearOrder W] (scales : Scales W) (memory : EpisodicMemory W) :
    MemoryInput W -> Prop
  | .deleteNote noteId => ∀ note ∈ memory.notes, note.id = noteId -> note.pinned = false
  | .runOnce gc cycle =>
    let left := (memory.relevant scales gc cycle.now).notes
    gc.maxCachedNotes < left.length -> ∀ note ∈ left, note.pinned = true ->
      note ∈ sliceTo gc.maxCachedNotes (EpisodicMemory.newestFirst left)
  | _ => True

def EpisodicMemory.Summarizes (texts : Texts) (memory : EpisodicMemory W) (summaryId : Nat)
    (name : String) (cluster : List (EpisodicNote W)) : Prop :=
  ∀ note ∈ memory.notes, note.id = summaryId ->
    note.content = buildSummary texts name cluster ∧ "env_scan" ∉ note.tags

/-- Identifiers are given once, pins are on record, and so is every replacement. -/
structure Sound (texts : Texts) (memory : EpisodicMemory W) : Prop where
  distinct : (memory.notes.map EpisodicNote.id).Nodup
  given : ∀ note ∈ memory.notes, note.id < memory.nextId
  noted : ∀ note ∈ memory.notes, note.pinned = true -> .pinned note.id ∈ memory.history
  past : ∀ noteId, .pinned noteId ∈ memory.history -> noteId < memory.nextId
  ordered : ∀ before replacement after,
    memory.history = before ++ .replaced replacement :: after -> Recorded before replacement
  summaries : ∀ replacement, .replaced replacement ∈ memory.history ->
    memory.Summarizes texts replacement.summaryId replacement.clusterName replacement.cluster

variable {texts : Texts} {memory : EpisodicMemory W}

theorem sound_initial : Sound texts ({} : EpisodicMemory W) where
  distinct := List.nodup_nil
  given := fun _ member => by cases member
  noted := fun _ member => by cases member
  past := fun _ member => by cases member
  ordered := fun before _ _ split => by cases before <;> cases split
  summaries := fun _ member => by cases member

theorem remembers_iff (sound : Sound texts memory) :
    Remembers texts memory <-> memory.KeepsPinned := by
  refine ⟨Remembers.pinned, fun keeps => ⟨keeps, fun before replacement after split => ?_⟩⟩
  have recorded := sound.ordered before replacement after split
  have member : NoteEvent.replaced replacement ∈ memory.history :=
    split ▸ List.mem_append_right before List.mem_cons_self
  have inHistory : .pinned replacement.summaryId ∈ memory.history :=
    split ▸ List.mem_append_left _ recorded.pinned
  rcases keeps _ inHistory with ⟨summary, here, named, isPinned⟩
  exact ⟨recorded, summary, here, named, isPinned, (sound.summaries _ member summary here named).1⟩

variable {note : EpisodicNote W}

theorem Sound.unique (sound : Sound texts memory) {other : EpisodicNote W}
    (member : note ∈ memory.notes) (otherMember : other ∈ memory.notes) (same : note.id = other.id) :
    note = other :=
  List.inj_on_of_nodup_map sound.distinct member otherMember same

/-! ## Notes that are dropped -/

variable {notes : List (EpisodicNote W)}

theorem Sound.drop (sound : Sound texts memory)
    (fewer : notes.Subperm memory.notes) : Sound texts { memory with notes := notes } where
  distinct := by
    rcases fewer with ⟨ordered, perm, sublist⟩
    exact (perm.map EpisodicNote.id).nodup_iff.mp ((sublist.map EpisodicNote.id).nodup sound.distinct)
  given := fun note member => sound.given note (fewer.subset member)
  noted := fun note member => sound.noted note (fewer.subset member)
  past := sound.past
  ordered := sound.ordered
  summaries := fun replacement member note here =>
    sound.summaries replacement member note (fewer.subset here)

theorem keepsPinned_drop (sound : Sound texts memory) (keeps : memory.KeepsPinned)
    (fewer : notes ⊆ memory.notes) :
    ({ memory with notes := notes } : EpisodicMemory W).KeepsPinned <->
      ∀ note ∈ memory.notes, note.pinned = true -> note ∈ notes := by
  constructor
  · intro keepsAfter note member isPinned
    rcases keepsAfter note.id (sound.noted note member isPinned) with ⟨other, otherMember, same, _⟩
    exact sound.unique (fewer otherMember) member same ▸ otherMember
  · intro kept noteId event
    rcases keeps noteId event with ⟨note, member, named, isPinned⟩
    exact ⟨note, kept note member isPinned, named, isPinned⟩

theorem deleteNote_subperm (memory : EpisodicMemory W) (noteId : Nat) :
    (memory.deleteNote noteId).notes.Subperm memory.notes :=
  List.eraseP_sublist.subperm

variable {noteId : Nat}

theorem mem_eraseP_of_distinct (distinct : (notes.map EpisodicNote.id).Nodup) :
    note ∈ notes.eraseP (fun other => decide (other.id = noteId)) <->
      note ∈ notes ∧ note.id ≠ noteId := by
  induction notes with
  | nil => exact iff_of_false List.not_mem_nil fun member => List.not_mem_nil member.1
  | cons first rest ih =>
    rw [List.map_cons, List.nodup_cons] at distinct
    by_cases here : first.id = noteId
    · have erased : (first :: rest).eraseP (fun other => decide (other.id = noteId)) = rest :=
        List.eraseP_cons_of_pos (decide_eq_true here)
      rw [erased, List.mem_cons]
      constructor
      · intro member
        refine ⟨.inr member, fun same => distinct.1 ?_⟩
        exact here ▸ same ▸ List.mem_map_of_mem member
      · rintro ⟨rfl | member, different⟩
        · exact absurd here different
        · exact member
    · have left : (first :: rest).eraseP (fun other => decide (other.id = noteId)) =
          first :: rest.eraseP fun other => decide (other.id = noteId) :=
        List.eraseP_cons_of_neg fun taken => here (of_decide_eq_true taken)
      rw [left, List.mem_cons, List.mem_cons, ih distinct.2, or_and_right]
      refine or_congr_left (iff_self_and.mpr ?_)
      rintro rfl
      exact here

theorem keepsPinned_delete (sound : Sound texts memory) (keeps : memory.KeepsPinned) (noteId : Nat) :
    (memory.deleteNote noteId).KeepsPinned <->
      ∀ note ∈ memory.notes, note.id = noteId -> note.pinned = false := by
  refine (keepsPinned_drop sound keeps (deleteNote_subperm memory noteId).subset).trans ?_
  unfold EpisodicMemory.deleteNote
  constructor
  · intro kept note member named
    refine Bool.eq_false_iff.mpr fun isPinned => ?_
    exact ((mem_eraseP_of_distinct sound.distinct).mp (kept note member isPinned)).2 named
  · intro loose note member isPinned
    refine (mem_eraseP_of_distinct sound.distinct).mpr ⟨member, fun named => ?_⟩
    rw [loose note member named] at isPinned
    cases isPinned

theorem keepsPinned_cleanup [LinearOrder W] (sound : Sound texts memory)
    (keeps : memory.KeepsPinned) (threshold : W) :
    (memory.cleanupLowRelevance threshold).KeepsPinned := by
  refine (keepsPinned_drop sound keeps fun _ member => List.mem_of_mem_filter member).mpr ?_
  intro note member isPinned
  refine List.mem_filter.mpr ⟨member, ?_⟩
  rw [isPinned]
  rfl

theorem sliceTo_sublist (limit : Int) (notes : List (EpisodicNote W)) :
    (sliceTo limit notes).Sublist notes := by
  unfold sliceTo
  split <;> exact List.take_sublist _ _

theorem capped_subperm (limit : Int) (notes : List (EpisodicNote W)) :
    (sliceTo limit (EpisodicMemory.newestFirst notes)).Subperm notes :=
  (sliceTo_sublist limit _).subperm.trans (List.perm_insertionSort _ notes).subperm

/-! ## Notes that are changed -/

structure Onward (texts : Texts) (memory after : EpisodicMemory W) : Prop where
  sound : Sound texts after
  keeps : after.KeepsPinned <-> memory.KeepsPinned
  later : memory.nextId ≤ after.nextId

theorem Onward.refl (sound : Sound texts memory) : Onward texts memory memory :=
  ⟨sound, Iff.rfl, Nat.le_refl _⟩

theorem Onward.trans {next last : EpisodicMemory W} (first : Onward texts memory next)
    (second : Onward texts next last) : Onward texts memory last :=
  ⟨second.sound, second.keeps.trans first.keeps, Nat.le_trans first.later second.later⟩

/-- The text of a note may change if it is that of a scan. -/
structure Alike (note changed : EpisodicNote W) : Prop where
  id : changed.id = note.id
  pinned : changed.pinned = note.pinned
  tags : changed.tags = note.tags
  content : "env_scan" ∉ note.tags -> changed.content = note.content

theorem Alike.refl (note : EpisodicNote W) : Alike note note :=
  ⟨rfl, rfl, rfl, fun _ => rfl⟩

variable {changed : List (EpisodicNote W)}

theorem alike_ids (alike : List.Forall₂ Alike notes changed) :
    changed.map EpisodicNote.id = notes.map EpisodicNote.id := by
  induction alike with
  | nil => rfl
  | cons first _ ih => rw [List.map_cons, List.map_cons, first.id, ih]

theorem exists_before
    (alike : List.Forall₂ Alike notes changed) {after : EpisodicNote W} (member : after ∈ changed) :
    ∃ note ∈ notes, Alike note after := by
  induction alike with
  | nil => cases member
  | cons first _ ih =>
    rcases List.mem_cons.mp member with rfl | later
    · exact ⟨_, List.mem_cons_self, first⟩
    · rcases ih later with ⟨note, here, same⟩
      exact ⟨note, List.mem_cons_of_mem _ here, same⟩

theorem exists_after (alike : List.Forall₂ Alike notes changed) (member : note ∈ notes) :
    ∃ after ∈ changed, Alike note after := by
  induction alike with
  | nil => cases member
  | cons first _ ih =>
    rcases List.mem_cons.mp member with rfl | later
    · exact ⟨_, List.mem_cons_self, first⟩
    · rcases ih later with ⟨after, here, same⟩
      exact ⟨after, List.mem_cons_of_mem _ here, same⟩

theorem onward_change (sound : Sound texts memory) (alike : List.Forall₂ Alike memory.notes notes) :
    Onward texts memory { memory with notes := notes } where
  sound :=
    { distinct := (alike_ids alike).symm ▸ sound.distinct
      given := by
        intro changed member
        rcases exists_before alike member with ⟨note, here, same⟩
        exact same.id ▸ sound.given note here
      noted := by
        intro changed member isPinned
        rcases exists_before alike member with ⟨note, here, same⟩
        exact same.id ▸ sound.noted note here (same.pinned ▸ isPinned)
      past := sound.past
      ordered := sound.ordered
      summaries := by
        intro replacement member changed changedMember named
        rcases exists_before alike changedMember with ⟨note, here, same⟩
        have ⟨content, tags⟩ := sound.summaries replacement member note here (same.id ▸ named)
        exact ⟨(same.content tags).trans content, same.tags ▸ tags⟩ }
  keeps := by
    refine forall_congr' fun noteId => imp_congr_right fun _ => ?_
    constructor
    · rintro ⟨changed, member, named, isPinned⟩
      rcases exists_before alike member with ⟨note, here, same⟩
      exact ⟨note, here, same.id ▸ named, same.pinned ▸ isPinned⟩
    · rintro ⟨note, member, named, isPinned⟩
      rcases exists_after alike member with ⟨changed, here, same⟩
      exact ⟨changed, here, same.id.trans named, same.pinned.trans isPinned⟩
  later := Nat.le_refl _

theorem onward_changeNotes (sound : Sound texts memory) {picked : EpisodicNote W -> Bool}
    {change : EpisodicNote W -> EpisodicNote W}
    (alike : ∀ note ∈ memory.notes, picked note = true -> Alike note (change note)) :
    Onward texts memory (memory.changeNotes picked change) := by
  refine onward_change sound (List.forall₂_map_right_iff.mpr (List.forall₂_same.mpr ?_))
  intro note member
  split
  case isTrue here => exact alike note member here
  case isFalse => exact Alike.refl note

theorem alike_decayed (scales : Scales W) (now : Int) (notes : List (EpisodicNote W)) :
    List.Forall₂ Alike notes (EpisodicMemory.decayed scales now notes) := by
  induction notes with
  | nil => exact List.Forall₂.nil
  | cons note rest ih =>
    unfold EpisodicMemory.decayed
    split
    · exact List.Forall₂.cons ⟨rfl, rfl, rfl, fun _ => rfl⟩ ih
    · split
      · exact List.Forall₂.cons (Alike.refl note) (List.forall₂_same.mpr fun other _ => Alike.refl other)
      · exact List.Forall₂.cons ⟨rfl, rfl, rfl, fun _ => rfl⟩ ih

/-! ## Notes that are stored and pinned -/

theorem ordered_append {history more : List (NoteEvent W)}
    (old : ∀ before replacement after, history = before ++ .replaced replacement :: after ->
      Recorded before replacement)
    (new : ∀ before replacement after, more = before ++ .replaced replacement :: after ->
      Recorded (history ++ before) replacement)
    (before : List (NoteEvent W)) (replacement : Replacement W) (after : List (NoteEvent W))
    (split : history ++ more = before ++ .replaced replacement :: after) :
    Recorded before replacement := by
  let holds (before : List (NoteEvent W)) (event : NoteEvent W) : Prop := ∀ replacement,
    event = .replaced replacement -> Recorded before replacement
  refine @forall_split_append _ holds _ _ ?_ ?_ before _ after split _ rfl
  · rintro before event after split replacement rfl
    exact old before replacement after split
  · rintro before event after split replacement rfl
    exact new before replacement after split

theorem ordered_append_one {history : List (NoteEvent W)} {event : NoteEvent W}
    (old : ∀ before replacement after, history = before ++ .replaced replacement :: after ->
      Recorded before replacement)
    (new : ∀ replacement, event = .replaced replacement -> Recorded history replacement) :
    ∀ before replacement after,
      history ++ [event] = before ++ .replaced replacement :: after -> Recorded before replacement := by
  refine ordered_append old fun before replacement after split => ?_
  rcases List.singleton_eq_append_iff.mp split with ⟨rfl, same⟩ | ⟨_, same⟩
  · rw [List.append_nil]
    exact new replacement (List.cons.inj same).1.symm
  · cases same

variable {replacement : Replacement W}

theorem Sound.summary_given (sound : Sound texts memory)
    (member : .replaced replacement ∈ memory.history) : replacement.summaryId < memory.nextId := by
  rcases List.append_of_mem member with ⟨before, after, split⟩
  have recorded := sound.ordered before replacement after split
  exact sound.past _ (split ▸ List.mem_append_left _ recorded.pinned)

variable (scales : Scales W)

theorem onward_add (sound : Sound texts memory) (content : String) (keywords tags : List String)
    (contextDescription : String) (clock : Nat -> Int) :
    Onward texts memory (memory.addNote scales content keywords tags contextDescription clock) where
  sound :=
    { distinct := by
        unfold EpisodicMemory.addNote
        rw [List.map_append]
        refine List.Nodup.append sound.distinct (List.nodup_singleton _) ?_
        refine List.disjoint_singleton.mpr fun member => ?_
        rcases List.mem_map.mp member with ⟨note, here, same⟩
        exact absurd (same ▸ sound.given note here) (Nat.lt_irrefl _)
      given := by
        intro note member
        rcases List.mem_append.mp member with old | new
        · exact Nat.lt_succ_of_lt (sound.given note old)
        · rw [List.mem_singleton.mp new]
          exact Nat.lt_succ_self _
      noted := by
        intro note member isPinned
        rcases List.mem_append.mp member with old | new
        · exact List.mem_append_left _ (sound.noted note old isPinned)
        · rw [List.mem_singleton.mp new] at isPinned
          cases isPinned
      past := by
        intro noteId event
        rcases List.mem_append.mp event with old | new
        · exact Nat.lt_succ_of_lt (sound.past noteId old)
        · cases List.mem_singleton.mp new
      ordered := ordered_append_one sound.ordered fun _ same => by cases same
      summaries := by
        intro replacement event note member named
        have old : .replaced replacement ∈ memory.history := by
          rcases List.mem_append.mp event with old | new
          · exact old
          · cases List.mem_singleton.mp new
        rcases List.mem_append.mp member with here | new
        · exact sound.summaries replacement old note here named
        · rw [List.mem_singleton.mp new] at named
          exact absurd (named ▸ sound.summary_given old) (Nat.lt_irrefl _) }
  keeps := by
    constructor
    · intro keeps noteId event
      rcases keeps noteId (List.mem_append_left _ event) with ⟨note, member, named, isPinned⟩
      rcases List.mem_append.mp member with old | new
      · exact ⟨note, old, named, isPinned⟩
      · rw [List.mem_singleton.mp new] at isPinned
        cases isPinned
    · intro keeps noteId event
      have old : .pinned noteId ∈ memory.history := by
        rcases List.mem_append.mp event with old | new
        · exact old
        · cases List.mem_singleton.mp new
      rcases keeps noteId old with ⟨note, member, named, isPinned⟩
      exact ⟨note, List.mem_append_left _ member, named, isPinned⟩
  later := Nat.le_succ _

/-! ### Pins -/

theorem mem_pinNote {after : EpisodicNote W} :
    after ∈ (memory.pinNote noteId).notes <-> ∃ note ∈ memory.notes,
      after = if note.id = noteId then { note with pinned := true } else note := by
  unfold EpisodicMemory.pinNote EpisodicMemory.changeNotes
  simp only [decide_eq_true_eq, List.mem_map]
  exact exists_congr fun note => and_congr_right fun _ => eq_comm

theorem mem_history_pinNote {event : NoteEvent W} : event ∈ (memory.pinNote noteId).history <->
      event ∈ memory.history ∨
        (event = .pinned noteId ∧ noteId ∈ memory.notes.map EpisodicNote.id) := by
  unfold EpisodicMemory.pinNote
  dsimp only
  split
  case isTrue present =>
    rw [List.mem_append, List.mem_singleton, and_iff_left present]
  case isFalse absent =>
    rw [or_iff_left fun both => absent both.2]

theorem sound_pin (sound : Sound texts memory) (noteId : Nat) :
    Sound texts (memory.pinNote noteId) where
  distinct := by
    have same : (memory.pinNote noteId).notes.map EpisodicNote.id =
        memory.notes.map EpisodicNote.id := by
      unfold EpisodicMemory.pinNote EpisodicMemory.changeNotes
      rw [List.map_map]
      refine List.map_congr_left fun note _ => ?_
      change EpisodicNote.id (if _ then _ else _) = _
      split <;> rfl
    exact same.symm ▸ sound.distinct
  given := by
    intro after member
    rcases mem_pinNote.mp member with ⟨note, here, rfl⟩
    have bound := sound.given note here
    split <;> exact bound
  noted := by
    intro after member isPinned
    rcases mem_pinNote.mp member with ⟨note, here, rfl⟩
    by_cases named : note.id = noteId
    · rw [if_pos named]
      refine mem_history_pinNote.mpr (.inr ⟨congrArg _ named, ?_⟩)
      exact named ▸ List.mem_map_of_mem here
    · rw [if_neg named] at isPinned ⊢
      exact mem_history_pinNote.mpr (.inl (sound.noted note here isPinned))
  past := by
    intro other event
    rcases mem_history_pinNote.mp event with old | ⟨new, present⟩
    · exact sound.past other old
    · cases new
      rcases List.mem_map.mp present with ⟨note, here, named⟩
      exact named ▸ sound.given note here
  ordered := by
    unfold EpisodicMemory.pinNote
    dsimp only
    split
    · exact ordered_append_one sound.ordered fun _ same => by cases same
    · exact sound.ordered
  summaries := by
    intro replacement event after member named
    have old : .replaced replacement ∈ memory.history := by
      rcases mem_history_pinNote.mp event with old | ⟨new, _⟩
      · exact old
      · cases new
    rcases mem_pinNote.mp member with ⟨note, here, rfl⟩
    have earlier := sound.summaries replacement old note here
    by_cases here : note.id = noteId
    · rw [if_pos here] at named ⊢
      exact earlier named
    · rw [if_neg here] at named ⊢
      exact earlier named

theorem keepsPinned_pin (keeps : memory.KeepsPinned) (noteId : Nat) :
    (memory.pinNote noteId).KeepsPinned := by
  intro other event
  have present : ∃ note ∈ memory.notes, note.id = other ∧
      (note.pinned = true ∨ other = noteId) := by
    rcases mem_history_pinNote.mp event with old | ⟨new, present⟩
    · rcases keeps other old with ⟨note, here, named, isPinned⟩
      exact ⟨note, here, named, .inl isPinned⟩
    · cases new
      rcases List.mem_map.mp present with ⟨note, here, named⟩
      exact ⟨note, here, named, .inr rfl⟩
  rcases present with ⟨note, here, named, isPinned⟩
  refine ⟨_, mem_pinNote.mpr ⟨note, here, rfl⟩, ?_, ?_⟩
  · split <;> exact named
  · split
    case isTrue => rfl
    case isFalse different => exact isPinned.resolve_right fun same => different (named.trans same)

theorem onward_pin (sound : Sound texts memory)
    (first : .pinned noteId ∉ memory.history) : Onward texts memory (memory.pinNote noteId) where
  sound := sound_pin sound noteId
  keeps := by
    refine ⟨fun keeps other event => ?_, fun keeps => keepsPinned_pin keeps noteId⟩
    have different : other ≠ noteId := fun same => first (same ▸ event)
    rcases keeps other (mem_history_pinNote.mpr (.inl event)) with ⟨after, member, named, isPinned⟩
    rcases mem_pinNote.mp member with ⟨note, here, rfl⟩
    by_cases same : note.id = noteId
    · rw [if_pos same] at named
      exact absurd (named.symm.trans same) different
    · rw [if_neg same] at named isPinned
      exact ⟨note, here, named, isPinned⟩
  later := Nat.le_refl _

/-! ## Notes that are replaced -/

theorem keepsPinned_of_fewer {after : EpisodicMemory W} (fewer : after.notes ⊆ memory.notes)
    (history : memory.history ⊆ after.history) (keeps : after.KeepsPinned) : memory.KeepsPinned := by
  intro noteId event
  rcases keeps noteId (history event) with ⟨note, member, named, isPinned⟩
  exact ⟨note, fewer member, named, isPinned⟩

structure Thinned (memory after : EpisodicMemory W) : Prop where
  notes : after.notes ⊆ memory.notes
  nextId : after.nextId = memory.nextId
  history : memory.history ⊆ after.history

theorem Thinned.trans {next last : EpisodicMemory W} (first : Thinned memory next)
    (second : Thinned next last) : Thinned memory last :=
  ⟨List.Subset.trans second.notes first.notes, second.nextId.trans first.nextId,
    List.Subset.trans first.history second.history⟩

theorem thinned_replaceNote (memory : EpisodicMemory W) (replacement : Replacement W) :
    Thinned memory (memory.replaceNote replacement) where
  notes := (deleteNote_subperm memory _).subset
  nextId := rfl
  history := by
    unfold EpisodicMemory.replaceNote
    dsimp only
    split
    · exact List.subset_append_left _ _
    · exact List.Subset.refl _

structure Loose (memory : EpisodicMemory W) (note : EpisodicNote W) : Prop where
  loose : note.pinned = false
  given : note.id < memory.nextId
  others : ∀ other ∈ memory.notes, other.id = note.id -> other.pinned = false

theorem Loose.thinned {after : EpisodicMemory W} (loose : Loose memory note)
    (thinned : Thinned memory after) : Loose after note where
  loose := loose.loose
  given := thinned.nextId.symm ▸ loose.given
  others := fun other member => loose.others other (thinned.notes member)

theorem Sound.replaced (sound : Sound texts memory) (recorded : Recorded memory.history replacement)
    (summarizes : memory.Summarizes texts replacement.summaryId replacement.clusterName
      replacement.cluster) :
    Sound texts { memory with history := memory.history ++ [.replaced replacement] } where
  distinct := sound.distinct
  given := sound.given
  noted := fun note member isPinned => List.mem_append_left _ (sound.noted note member isPinned)
  past := by
    intro noteId event
    rcases List.mem_append.mp event with old | new
    · exact sound.past noteId old
    · cases List.mem_singleton.mp new
  ordered := ordered_append_one sound.ordered fun other same => by
    cases same
    exact recorded
  summaries := by
    intro other event
    rcases List.mem_append.mp event with old | new
    · exact sound.summaries other old
    · cases List.mem_singleton.mp new
      exact summarizes

theorem onward_replaceNote (sound : Sound texts memory)
    (recorded : Recorded memory.history replacement)
    (summarizes : memory.Summarizes texts replacement.summaryId replacement.clusterName
      replacement.cluster)
    (loose : Loose memory replacement.note) : Onward texts memory (memory.replaceNote replacement) where
  sound := by
    have dropped : Sound texts (memory.deleteNote replacement.note.id) :=
      sound.drop (deleteNote_subperm memory _)
    have fewer := (deleteNote_subperm memory replacement.note.id).subset
    unfold EpisodicMemory.replaceNote
    split
    · exact dropped.replaced recorded fun note member => summarizes note (fewer member)
    · exact dropped
  keeps := by
    have thinned := thinned_replaceNote memory replacement
    refine ⟨keepsPinned_of_fewer thinned.notes thinned.history, fun keeps noteId event => ?_⟩
    have old : .pinned noteId ∈ memory.history := by
      unfold EpisodicMemory.replaceNote at event
      dsimp only at event
      split at event
      · rcases List.mem_append.mp event with old | new
        · exact old
        · cases List.mem_singleton.mp new
      · exact event
    exact (keepsPinned_delete sound keeps replacement.note.id).mpr loose.others noteId old
  later := Nat.le_refl _

/-- Induction on the notes of a cluster which are still to be removed. -/
theorem onward_replaceAll (summaryId : Nat) (name : String) {cluster : List (EpisodicNote W)}
    (rest : List (EpisodicNote W)) (within : rest ⊆ cluster) (sound : Sound texts memory)
    (loose : ∀ note ∈ rest, Loose memory note)
    (stored : .stored summaryId ∈ memory.history) (pinned : .pinned summaryId ∈ memory.history)
    (summarizes : memory.Summarizes texts summaryId name cluster) : Onward texts memory (rest.foldl
        (fun memory note => memory.replaceNote ⟨note, summaryId, name, cluster⟩) memory) ∧
      Thinned memory (rest.foldl
        (fun memory note => memory.replaceNote ⟨note, summaryId, name, cluster⟩) memory) := by
  induction rest generalizing memory with
  | nil => exact ⟨Onward.refl sound, List.Subset.refl _, rfl, List.Subset.refl _⟩
  | cons note rest ih =>
    have here := loose note List.mem_cons_self
    have first : Onward texts memory (memory.replaceNote ⟨note, summaryId, name, cluster⟩) :=
      onward_replaceNote sound
        { stored := stored
          pinned := pinned
          clustered := within List.mem_cons_self
          loose := here.loose }
        summarizes here
    have thinned := thinned_replaceNote memory ⟨note, summaryId, name, cluster⟩
    have ⟨onward, further⟩ := ih
      (fun other member => within (List.mem_cons_of_mem _ member)) first.sound
      (fun other member => (loose other (List.mem_cons_of_mem _ member)).thinned thinned)
      (thinned.history stored) (thinned.history pinned)
      (fun other member => summarizes other (thinned.notes member))
    exact ⟨first.trans onward, thinned.trans further⟩

/-! ## Clusters -/

section Consolidation

variable (consolidator : MemoryConsolidator)

variable {notes : List (EpisodicNote W)}

theorem gather_subset {gathering : Gathering W} {note : EpisodicNote W}
    (within : gathering.cluster ⊆ notes) (member : note ∈ notes) :
    (gather texts consolidator gathering note).cluster ⊆ notes := by
  unfold gather
  split
  · exact within
  · split
    · exact within
    · split
      · exact List.append_subset.mpr ⟨within, List.cons_subset.mpr ⟨member, List.nil_subset _⟩⟩
      · exact within

theorem gathered_subset (rest : List (EpisodicNote W))
    (part : rest ⊆ notes) {gathering : Gathering W} (within : gathering.cluster ⊆ notes) :
    (rest.foldl (gather texts consolidator) gathering).cluster ⊆ notes := by
  induction rest generalizing gathering with
  | nil => exact within
  | cons note rest ih =>
    have ⟨member, others⟩ := List.cons_subset.mp part
    exact ih others (gather_subset consolidator within member)

theorem clustersWithin (rest : List (EpisodicNote W))
    (part : rest ⊆ notes) {clustering : Clustering W}
    (within : ∀ entry ∈ clustering.clusters, entry.2 ⊆ notes) :
    ∀ entry ∈ (rest.foldl (clusterFrom texts consolidator notes) clustering).clusters,
      entry.2 ⊆ notes := by
  induction rest generalizing clustering with
  | nil => exact within
  | cons note rest ih =>
    have ⟨member, others⟩ := List.cons_subset.mp part
    refine ih others fun entry inDict => ?_
    unfold clusterFrom at inDict
    split at inDict
    · exact within entry inDict
    · split at inDict
      · exact within entry inDict
      · rcases Dict.mem_set inDict with rfl | old
        · exact gathered_subset consolidator notes (List.Subset.refl _)
            (List.cons_subset.mpr ⟨member, List.nil_subset _⟩)
        · exact within entry old

theorem mem_clusterByKeywords [LinearOrder W] {entry : String × List (EpisodicNote W)}
    (member : entry ∈ clusterByKeywords texts consolidator notes) : entry.2 ⊆ notes := by
  have sorted := List.perm_insertionSort
    (fun note other : EpisodicNote W => note.decayWeight ≤ other.decayWeight) notes
  have within := clustersWithin consolidator _ (List.Subset.refl _)
    (fun _ none_ => by cases none_) entry member
  exact List.Subset.trans within sorted.subset

theorem scanTag_of_cluster (name : String) : "env_scan" ∉ ["consolidated", "cluster:" ++ name] := by
  intro member
  rcases List.mem_cons.mp member with same | later
  · exact absurd same (by decide)
  · have letters := congrArg String.toList (List.mem_singleton.mp later)
    rw [String.toList_append] at letters
    have first := congrArg List.head? letters
    have start : "cluster:".toList = 'c' :: "luster:".toList := by decide
    have other : "env_scan".toList = 'e' :: "nv_scan".toList := by decide
    rw [start, other, List.cons_append, List.head?_cons, List.head?_cons] at first
    exact absurd first (by decide)

structure Summarized (texts : Texts) (memory after : EpisodicMemory W) (name : String)
    (cluster : List (EpisodicNote W)) : Prop where
  onward : Onward texts memory after
  stored : .stored memory.nextId ∈ after.history
  pinned : .pinned memory.nextId ∈ after.history
  summarizes : after.Summarizes texts memory.nextId name cluster
  loose : ∀ note, Loose memory note -> Loose after note

theorem summarized (sound : Sound texts memory) (clock : Nat -> Int) (name : String)
    (cluster : List (EpisodicNote W)) :
    Summarized texts memory (memory.summarize scales texts clock name cluster) name cluster := by
  have added := onward_add scales sound (buildSummary texts name cluster)
    (mergedKeywords texts cluster) ["consolidated", "cluster:" ++ name]
    ("Consolidated from " ++ toString cluster.length ++ " episodes") clock
  have unpinned : .pinned memory.nextId ∉ (memory.addNote scales (buildSummary texts name cluster)
      (mergedKeywords texts cluster) ["consolidated", "cluster:" ++ name]
      ("Consolidated from " ++ toString cluster.length ++ " episodes") clock).history := by
    intro event
    rcases List.mem_append.mp event with old | new
    · exact Nat.lt_irrefl _ (sound.past _ old)
    · cases List.mem_singleton.mp new
  -- What is in memory afterwards: the old notes, and the summary under the new identifier.
  have known (after : EpisodicNote W)
      (member : after ∈ (memory.summarize scales texts clock name cluster).notes) :
      (after ∈ memory.notes ∧ after.id ≠ memory.nextId) ∨
        (after.id = memory.nextId ∧ after.content = buildSummary texts name cluster ∧
          after.tags = ["consolidated", "cluster:" ++ name]) := by
    rcases mem_pinNote.mp member with ⟨note, here, rfl⟩
    rcases List.mem_append.mp here with old | new
    · have different := Nat.ne_of_lt (sound.given note old)
      rw [if_neg different]
      exact .inl ⟨old, different⟩
    · cases List.mem_singleton.mp new
      rw [if_pos rfl]
      exact .inr ⟨rfl, rfl, rfl⟩
  refine ⟨added.trans (onward_pin added.sound unpinned), ?_, ?_, ?_, ?_⟩
  · refine mem_history_pinNote.mpr (.inl ?_)
    exact List.mem_append_right _ (List.mem_singleton_self _)
  · refine mem_history_pinNote.mpr (.inr ⟨rfl, ?_⟩)
    exact List.mem_map.mpr ⟨_, List.mem_append_right _ (List.mem_singleton_self _), rfl⟩
  · intro after member named
    rcases known after member with ⟨_, different⟩ | ⟨_, content, tags⟩
    · exact absurd named different
    · exact ⟨content, tags ▸ scanTag_of_cluster name⟩
  · intro note loose
    refine ⟨loose.loose, Nat.lt_succ_of_lt loose.given, fun after member named => ?_⟩
    rcases known after member with ⟨old, _⟩ | ⟨new, _⟩
    · exact loose.others after old named
    · exact absurd (named.symm.trans new) (Nat.ne_of_lt loose.given)

/-- Induction on the clusters which are still to be looked at. -/
theorem onward_consolidateClusters (clock : Nat -> Int) (knows : String -> Bool)
    (clusters : Dict String (List (EpisodicNote W))) (sound : Sound texts memory)
    (loose : ∀ entry ∈ clusters, ∀ note ∈ entry.2, Loose memory note) : Onward texts memory
      (EpisodicMemory.consolidateClusters scales texts consolidator clock knows memory clusters) := by
  induction clusters generalizing memory with
  | nil => exact Onward.refl sound
  | cons entry rest ih =>
    rcases entry with ⟨name, cluster⟩
    have others := fun entry member => loose entry (List.mem_cons_of_mem _ member)
    have summary := summarized scales sound clock name cluster
    unfold EpisodicMemory.consolidateClusters
    split
    · exact ih sound others
    · split
      · have ⟨onward, thinned⟩ := onward_replaceAll memory.nextId name cluster
          (List.Subset.refl _) summary.onward.sound
          (fun note member => summary.loose note (loose _ List.mem_cons_self note member))
          summary.stored summary.pinned summary.summarizes
        refine (summary.onward.trans onward).trans (ih onward.sound ?_)
        intro entry member note inCluster
        exact (summary.loose note (others entry member note inCluster)).thinned thinned
      · exact summary.onward

theorem onward_consolidate [LinearOrder W] (weak : W) (sound : Sound texts memory) (clock : Nat -> Int)
    (knows : String -> Bool) :
    Onward texts memory (memory.consolidate scales texts weak consolidator clock knows) := by
  unfold EpisodicMemory.consolidate
  split
  · exact Onward.refl sound
  · split
    · exact Onward.refl sound
    · refine onward_consolidateClusters scales consolidator clock knows _ sound ?_
      intro entry inDict note member
      have ⟨here, weakly⟩ := List.mem_filter.mp (mem_clusterByKeywords consolidator inDict member)
      rw [Bool.and_eq_true, Bool.not_eq_true'] at weakly
      refine ⟨weakly.1, sound.given note here, fun other otherMember same => ?_⟩
      exact sound.unique otherMember here same ▸ weakly.1

end Consolidation

/-! ## A cycle of the collector -/

theorem onward_storeScan (sound : Sound texts memory) (clock : Nat -> Int) (scan : Scan) :
    Onward texts memory (memory.storeScan scales clock scan) := by
  unfold EpisodicMemory.storeScan
  split
  case h_1 existing found =>
    refine onward_changeNotes sound fun note member named => ⟨rfl, rfl, rfl, fun untagged => ?_⟩
    have here := List.mem_of_find?_eq_some found
    have tagged := List.find?_some found
    rw [sound.unique member here (of_decide_eq_true named)] at untagged
    exact absurd (of_decide_eq_true tagged) untagged
  case h_2 =>
    have added := onward_add scales sound scan.memoryText scan.keywords
      ["env_scan", "system_info", "pinned"] ("Environment scan of " ++ scan.hostname) clock
    refine added.trans (onward_pin added.sound ?_)
    intro event
    rcases List.mem_append.mp event with old | new
    · exact Nat.lt_irrefl _ (sound.past _ old)
    · cases List.mem_singleton.mp new

variable (gc : MemoryGC W) (weak : W)

theorem onward_afterCap [LinearOrder W] (cycle : Cycle) (sound : Sound texts memory) : Onward texts memory
      ((memory.consolidateIf scales texts gc weak cycle).refreshIf scales gc cycle) := by
  have consolidated : Onward texts memory (memory.consolidateIf scales texts gc weak cycle) := by
    unfold EpisodicMemory.consolidateIf
    split
    · exact onward_consolidate scales _ weak sound cycle.clock cycle.knows
    · exact Onward.refl sound
  refine consolidated.trans ?_
  unfold EpisodicMemory.refreshIf
  split
  · split
    · exact onward_storeScan scales consolidated.sound cycle.clock _
    · exact Onward.refl consolidated.sound
  · exact Onward.refl consolidated.sound

theorem sound_relevant [LinearOrder W] (now : Int) (sound : Sound texts memory) :
    Sound texts (memory.relevant scales gc now) :=
  (onward_change sound (alike_decayed scales now memory.notes)).sound.drop
    List.filter_sublist.subperm

theorem keepsPinned_relevant [LinearOrder W] (now : Int) (sound : Sound texts memory)
    (keeps : memory.KeepsPinned) : (memory.relevant scales gc now).KeepsPinned := by
  have decayed := onward_change sound (alike_decayed scales now memory.notes)
  exact keepsPinned_cleanup decayed.sound (decayed.keeps.mpr keeps) gc.decayThreshold

theorem sound_cap (sound : Sound texts memory) (maxCachedNotes : Int) :
    Sound texts (memory.capNotes maxCachedNotes) := by
  unfold EpisodicMemory.capNotes
  split
  · exact sound.drop (capped_subperm maxCachedNotes memory.notes)
  · exact sound

theorem keepsPinned_cap (sound : Sound texts memory) (keeps : memory.KeepsPinned)
    (maxCachedNotes : Int) : (memory.capNotes maxCachedNotes).KeepsPinned <->
      (maxCachedNotes < memory.notes.length -> ∀ note ∈ memory.notes, note.pinned = true ->
          note ∈ sliceTo maxCachedNotes (EpisodicMemory.newestFirst memory.notes)) := by
  unfold EpisodicMemory.capNotes
  split
  case isTrue more =>
    refine (keepsPinned_drop sound keeps (capped_subperm maxCachedNotes memory.notes).subset).trans ?_
    exact ⟨fun kept _ => kept, fun kept => kept more⟩
  case isFalse few => exact iff_of_true keeps fun more => absurd more few

theorem keepsPinned_runOnce [LinearOrder W] (cycle : Cycle) (sound : Sound texts memory)
    (keeps : memory.KeepsPinned) : (memory.runOnce scales texts gc weak cycle).KeepsPinned <->
      SparesPinned scales memory (.runOnce gc cycle) := by
  have left := sound_relevant scales gc cycle.now sound
  have kept := keepsPinned_relevant scales gc cycle.now sound keeps
  have capped := sound_cap left gc.maxCachedNotes
  exact (onward_afterCap scales gc weak cycle capped).keeps.trans
    (keepsPinned_cap left kept gc.maxCachedNotes)

theorem onward_search [LinearOrder W] (sound : Sound texts memory) (lower : String -> String)
    (keywords : List String) (limit : Int) (clock : Nat -> Int) :
    Onward texts memory (memory.searchByKeywords scales lower keywords limit clock) :=
  onward_changeNotes sound fun _ _ _ => ⟨rfl, rfl, rfl, fun _ => rfl⟩

theorem onward_updateNote (sound : Sound texts memory) (noteId : Nat)
    (contextDescription : Option String) (keywords : Option (List String)) (clock : Nat -> Int) :
    Onward texts memory (memory.updateNote noteId contextDescription keywords clock) := by
  unfold EpisodicMemory.updateNote
  exact onward_changeNotes sound fun _ _ _ => ⟨rfl, rfl, rfl, fun _ => rfl⟩

theorem alike_linkTo (target : Nat) (note : EpisodicNote W) :
    Alike note (EpisodicMemory.linkTo target note) := by
  unfold EpisodicMemory.linkTo
  split
  · exact Alike.refl note
  · exact ⟨rfl, rfl, rfl, fun _ => rfl⟩

theorem onward_linkNotes (sound : Sound texts memory) (noteIdA noteIdB : Nat) :
    Onward texts memory (memory.linkNotes noteIdA noteIdB) := by
  unfold EpisodicMemory.linkNotes
  split
  · have first : Onward texts memory (memory.changeNotes (fun note => decide (note.id = noteIdA))
        (EpisodicMemory.linkTo noteIdB)) :=
      onward_changeNotes sound fun note _ _ => alike_linkTo noteIdB note
    exact first.trans (onward_changeNotes first.sound fun note _ _ => alike_linkTo noteIdA note)
  · exact Onward.refl sound

theorem sound_step [LinearOrder W] (sound : Sound texts memory) (input : MemoryInput W) :
    Sound texts (memory.step scales texts weak input) := by
  cases input with
  | addNote content keywords tags contextDescription clock =>
    exact (onward_add scales sound content keywords tags contextDescription clock).sound
  | searchByKeywords keywords limit clock =>
    exact (onward_search scales sound texts.lower keywords limit clock).sound
  | updateNote noteId contextDescription keywords clock =>
    exact (onward_updateNote sound noteId contextDescription keywords clock).sound
  | linkNotes noteIdA noteIdB => exact (onward_linkNotes sound noteIdA noteIdB).sound
  | deleteNote noteId => exact sound.drop (deleteNote_subperm memory noteId)
  | pinNote noteId => exact sound_pin sound noteId
  | applyDecay now => exact (onward_change sound (alike_decayed scales now memory.notes)).sound
  | cleanupLowRelevance threshold => exact sound.drop List.filter_sublist.subperm
  | consolidate consolidator clock knows =>
    exact (onward_consolidate scales consolidator weak sound clock knows).sound
  | runOnce gc cycle =>
    have capped := sound_cap (sound_relevant scales gc cycle.now sound) gc.maxCachedNotes
    exact (onward_afterCap scales gc weak cycle capped).sound

theorem keepsPinned_step [LinearOrder W] (sound : Sound texts memory) (keeps : memory.KeepsPinned)
    (input : MemoryInput W) :
    (memory.step scales texts weak input).KeepsPinned <-> SparesPinned scales memory input := by
  have still {after : EpisodicMemory W} (onward : Onward texts memory after) :
      after.KeepsPinned <-> True := iff_of_true (onward.keeps.mpr keeps) trivial
  cases input with
  | addNote content keywords tags contextDescription clock =>
    exact still (onward_add scales sound content keywords tags contextDescription clock)
  | searchByKeywords keywords limit clock =>
    exact still (onward_search scales sound texts.lower keywords limit clock)
  | updateNote noteId contextDescription keywords clock =>
    exact still (onward_updateNote sound noteId contextDescription keywords clock)
  | linkNotes noteIdA noteIdB => exact still (onward_linkNotes sound noteIdA noteIdB)
  | deleteNote noteId => exact keepsPinned_delete sound keeps noteId
  | pinNote noteId => exact iff_of_true (keepsPinned_pin keeps noteId) trivial
  | applyDecay now => exact still (onward_change sound (alike_decayed scales now memory.notes))
  | cleanupLowRelevance threshold =>
    exact iff_of_true (keepsPinned_cleanup sound keeps threshold) trivial
  | consolidate consolidator clock knows =>
    exact still (onward_consolidate scales consolidator weak sound clock knows)
  | runOnce gc cycle => exact keepsPinned_runOnce scales gc weak cycle sound keeps

/-- What was pinned stays, and what was replaced is represented by an earlier pinned
summary, exactly if no step removes a pinned note by its identifier or at the cap. -/
theorem remembers_exactly [LinearOrder W] (scales : Scales W) (texts : Texts) (weak : W)
    (inputs : List (MemoryInput W)) :
    (memoryMachine scales texts weak).EveryState (Remembers texts) inputs <->
      (memoryMachine scales texts weak).EveryStep (SparesPinned scales) inputs := by
  have initially : Remembers texts (memoryMachine scales texts weak).initial :=
    (remembers_iff sound_initial).mpr fun _ event => by cases event
  refine (memoryMachine scales texts weak).everyState_iff_everyStep (Sound texts) initially
    sound_initial (fun memory input sound => sound_step scales weak sound input) ?_ inputs
  intro memory input sound remembers
  refine (remembers_iff (sound_step scales weak sound input)).trans ?_
  exact keepsPinned_step scales weak sound remembers.pinned input

def evenScales : Scales Nat where
  full := 10
  strengthened := id
  scored := fun score weight => score * weight
  decayed := fun _ _ => some 10

def plainTexts : Texts where
  lower := id
  strip := id
  arranged := id

def quietCycle : Cycle where
  runNumber := 0
  now := 2
  clock := fun _ => 2
  overlaps := fun _ _ => false
  knows := fun _ => true
  scan := none

/-- A note is pinned, ten later ones come, and ten are kept. -/
def crowdedMemory : List (MemoryInput Nat) :=
  .addNote "the door code is 4711" [] [] "" (fun _ => 0) :: .pinNote 1 ::
    (List.replicate 10 (.addNote "small talk" [] [] "" fun _ => 1) ++
      [.runOnce { decayThreshold := 1, maxCachedNotes := 10 } quietCycle])

theorem pinned_note_trimmed :
    Not ((memoryMachine evenScales plainTexts 8).EveryState (Remembers plainTexts) crowdedMemory) := by
  intro every
  have last := every crowdedMemory [] (List.append_nil _).symm
  have event : NoteEvent.pinned 1 ∈
      ((memoryMachine evenScales plainTexts 8).after crowdedMemory).history :=
    List.mem_cons_of_mem _ List.mem_cons_self
  have gone : (((memoryMachine evenScales plainTexts 8).after crowdedMemory).notes.all
      fun note => !decide (note.id = 1)) = true := rfl
  rcases last.pinned 1 event with ⟨note, member, named, _⟩
  have other := List.all_eq_true.mp gone note member
  rw [decide_eq_true named] at other
  cases other

end Memory
end BreadMind
