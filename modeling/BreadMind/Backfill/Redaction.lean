import BreadMind.Backfill.Runner
import BreadMind.Knowledge.MaskedParts

namespace BreadMind
namespace Backfill

open Execution
open Execution.Program
open Knowledge (Redactor HasAddress IsToken Unspelt contains_iff search_email_iff)
open Regex (ApartIn Part SamePlain written)

/-!
# What a stored row shows of its item

The runner has the guard read the body of an item and masks the body; the title
goes into the row as the adapter has made it.
-/

/-- What the collaborators besides the redactor answer for one item; the
embedder reads the masked body. -/
structure Services where
  filter : Except Thrown Verdict
  keepMapping : Option Thrown
  embed : String -> Except Thrown (List Rat)
  insert : Option Thrown
  cite : Option Thrown

variable {Cursor : Type}

def masked (redactor : Redactor) (body : String) : String :=
  String.ofList (redactor.redact body.toList).1

/-- The two calls of the redactor; the mapping is kept only if something was masked. -/
def redactBody (redactor : Redactor) (services : Services) (body : String) : Except Thrown String :=
  match redactor.abortIfSecrets body.toList with
  | .error _ => .error .secretDetected
  | .ok () =>
    if (redactor.redact body.toList).2.mapping.isEmpty then .ok (masked redactor body)
    else
      match services.keepMapping with
      | some thrown => .error thrown
      | none => .ok (masked redactor body)

def Services.visit (services : Services) (redactor : Redactor) (item : BackfillItem) : Visit where
  item := item
  answers :=
    { filter := services.filter
      redact := redactBody redactor services item.body
      embed := services.embed (masked redactor item.body)
      insert := services.insert
      cite := services.cite }

/-! ## What one item adds -/

structure Accepts (redactor : Redactor) (services : Services) (job : Job Cursor)
    (state : RunState Cursor) (item : BackfillItem) : Prop where
  budget : Not (job.tokenBudget ≤ state.progress.tokensConsumed + item.body.length / 4)
  redacts : redactBody redactor services item.body = .ok (masked redactor item.body)
  embeds : ∃ embedding, services.embed (masked redactor item.body) = .ok embedding
  inserts : services.insert = none
  fresh : state.knowledge.any (fun row => row.isFor job.orgId item) = false

def Stores (redactor : Redactor) (services : Services) (job : Job Cursor) (state : RunState Cursor)
    (item : BackfillItem) (row : KnowledgeRow) : Prop :=
  ((processItem job (services.visit redactor item)).run.run state).2.knowledge =
    state.knowledge ++ [row]

section
variable {job : Job Cursor} {visit : Visit} {state : RunState Cursor}

theorem run_modify (change : RunState Cursor -> RunState Cursor) :
    (modify change : Running Cursor PUnit).run.run state = (.ok ⟨⟩, change state) :=
  rfl

theorem run_count (change : JobProgress -> JobProgress) :
    (count change : Running Cursor PUnit).run.run state =
      (.ok ⟨⟩, { state with progress := change state.progress }) :=
  rfl

theorem countError_knowledge (thrown : Thrown) :
    ((countError thrown).run.run state).2.knowledge = state.knowledge := by
  unfold countError
  split <;> rfl

theorem store_knowledge (body : String) (embedding : List Rat) :
    ((store job visit body embedding).run.run state).2.knowledge = if visit.answers.insert = none ∧
          state.knowledge.any (fun row => row.isFor job.orgId visit.item) = false then
        state.knowledge ++ [knowledgeRow job.orgId visit.item body embedding]
      else state.knowledge := by
  unfold store
  cases insert : visit.answers.insert with
  | some thrown =>
    rw [if_neg (fun both => nomatch both.1)]
    exact countError_knowledge thrown
  | none =>
    dsimp only
    rw [run_bind_ok (run_get state)]
    cases held : state.knowledge.any (fun row => row.isFor job.orgId visit.item) with
    | true => rfl
    | false =>
      rw [if_neg Bool.false_ne_true, if_pos ⟨rfl, rfl⟩, run_bind_ok (run_modify _)]
      cases visit.answers.cite with
      | some thrown => exact countError_knowledge thrown
      | none => rfl

theorem processItem_knowledge : ((processItem job visit).run.run state).2.knowledge =
      match visit.answers.redact, visit.answers.embed with
      | .ok body, .ok embedding =>
        if Not (job.tokenBudget ≤ state.progress.tokensConsumed + visit.item.body.length / 4) ∧
            visit.answers.insert = none ∧
            state.knowledge.any (fun row => row.isFor job.orgId visit.item) = false then
          state.knowledge ++ [knowledgeRow job.orgId visit.item body embedding]
        else state.knowledge
      | _, _ => state.knowledge := by
  unfold processItem
  rw [run_bind_ok (run_get state)]
  by_cases spent : job.tokenBudget ≤ state.progress.tokensConsumed + visit.item.body.length / 4
  · dsimp only
    rw [if_pos spent]
    split
    · rw [if_neg (fun every => every.1 spent)]
      rfl
    · rfl
  · dsimp only
    rw [if_neg spent]
    cases visit.answers.redact with
    | error thrown =>
      cases thrown with
      | secretDetected => rfl
      | skipped | exception | cancelled => exact countError_knowledge _
    | ok body =>
      dsimp only
      rw [run_bind_ok (run_count _)]
      unfold embedAndStore
      cases visit.answers.embed with
      | error thrown => exact countError_knowledge thrown
      | ok embedding =>
        dsimp only
        rw [run_bind_ok (run_count _), store_knowledge]
        simp only [spent, not_false_eq_true, true_and]

end

variable {redactor : Redactor} {services : Services} {job : Job Cursor} {state : RunState Cursor}
variable {item : BackfillItem} {row : KnowledgeRow}

theorem redactBody_eq {body answer : String} (redacts : redactBody redactor services body = .ok answer) :
    answer = masked redactor body ∧ redactor.abortIfSecrets body.toList = .ok () := by
  unfold redactBody at redacts
  split at redacts
  case h_1 => cases redacts
  case h_2 passed =>
    refine ⟨?_, passed⟩
    split at redacts
    case isTrue => exact (Except.ok.inj redacts).symm
    case isFalse =>
      split at redacts
      case h_1 => cases redacts
      case h_2 => exact (Except.ok.inj redacts).symm

theorem stores_iff : Stores redactor services job state item row <->
      Accepts redactor services job state item ∧
        ∃ embedding, services.embed (masked redactor item.body) = .ok embedding ∧
          row = knowledgeRow job.orgId item (masked redactor item.body) embedding := by
  have unchanged : state.knowledge ≠ state.knowledge ++ [row] := by
    intro same
    exact List.cons_ne_nil row [] (List.self_eq_append_right.mp same)
  unfold Stores
  rw [processItem_knowledge]
  constructor
  · intro stored
    split at stored
    case h_1 body embedding redacts embeds =>
      split at stored
      case isTrue every =>
        have answer := redactBody_eq redacts
        have same := List.singleton_inj.mp (List.append_cancel_left stored)
        refine ⟨⟨every.1, redacts.trans (congrArg Except.ok answer.1), ⟨embedding, embeds⟩,
          every.2.1, every.2.2⟩, embedding, embeds, ?_⟩
        rw [← same, answer.1]
        rfl
      case isFalse => exact (unchanged stored).elim
    case h_2 => exact (unchanged stored).elim
  · rintro ⟨accepts, embedding, embeds, rfl⟩
    have redacts : (services.visit redactor item).answers.redact = .ok (masked redactor item.body) :=
      accepts.redacts
    have answers : (services.visit redactor item).answers.embed = .ok embedding := embeds
    rw [redacts, answers]
    exact if_pos ⟨accepts.budget, accepts.inserts, accepts.fresh⟩

/-! ## The texts of a row -/

/-- No address and no term of the vocabulary is in the text. -/
structure Clean (redactor : Redactor) (text : String) : Prop where
  noAddress : redactor.search redactor.classes.emailPattern text.toList = false
  noTerm : ∀ term ∈ redactor.vocab, Knowledge.contains text.toList term = false

/-- The row of the item shows nothing that the redactor masks, and comes from an item
without secrets. -/
structure StoresMasked (redactor : Redactor) (services : Services) (job : Job Cursor)
    (state : RunState Cursor) (item : BackfillItem) : Prop where
  columns : ∀ row, Stores redactor services job state item row ->
    Clean redactor row.title ∧ Clean redactor row.body
  secretless : ∀ row, Stores redactor services job state item row ->
    redactor.abortIfSecrets item.title.toList = .ok () ∧
      redactor.abortIfSecrets item.body.toList = .ok ()

/-- The title has no secret and is clean, and no term that a token spells, such as a
part of its name, is in the masked body. -/
structure Showable (redactor : Redactor) (item : BackfillItem) : Prop where
  title : Clean redactor item.title
  secretless : redactor.abortIfSecrets item.title.toList = .ok ()
  spelt : ∀ term ∈ redactor.vocab, Not (Unspelt term) ->
    Knowledge.contains (redactor.redact item.body.toList).1 term = false

theorem clean_masked (spelt : ∀ term ∈ redactor.vocab, Not (Unspelt term) ->
      Knowledge.contains (redactor.redact item.body.toList).1 term = false) :
    Clean redactor (masked redactor item.body) := by
  unfold masked
  constructor
  · rw [String.toList_ofList]
    apply Bool.eq_false_iff.mpr
    intro found
    exact redactor.redact_noAddress _ ((search_email_iff _).mp found)
  · intro term member
    rw [String.toList_ofList]
    by_cases unspelt : Unspelt term
    · apply Bool.eq_false_iff.mpr
      intro found
      exact Redactor.redact_noTerm member unspelt _ ((contains_iff _ _).mp found)
    · exact spelt term member unspelt

theorem storesMasked_iff (redactor : Redactor) (services : Services) (job : Job Cursor)
    (state : RunState Cursor) (item : BackfillItem) :
    StoresMasked redactor services job state item <->
      (Accepts redactor services job state item -> Showable redactor item) := by
  constructor
  · intro safe accepts
    rcases accepts.embeds with ⟨embedding, embeds⟩
    have stores := stores_iff.mpr ⟨accepts, embedding, embeds, rfl⟩
    have clean := safe.columns _ stores
    refine ⟨clean.1, (safe.secretless _ stores).1, ?_⟩
    intro term member _
    have noTerm := clean.2.noTerm term member
    dsimp only [knowledgeRow] at noTerm
    unfold masked at noTerm
    rw [String.toList_ofList] at noTerm
    exact noTerm
  · intro showable
    constructor
    · intro row stores
      rcases stores_iff.mp stores with ⟨accepts, embedding, _, rfl⟩
      exact ⟨(showable accepts).title, clean_masked (showable accepts).spelt⟩
    · intro row stores
      rcases stores_iff.mp stores with ⟨accepts, _⟩
      exact ⟨(showable accepts).secretless, (redactBody_eq accepts.redacts).2⟩

/-- Rows of items which differ in addresses and terms alone differ in tokens alone. -/
def StoredAlike (redactor : Redactor) (services : Services) (job : Job Cursor) (state : RunState Cursor)
    (item other : BackfillItem) : Prop :=
  ApartIn redactor.Maskable item.title.toList other.title.toList ->
    ApartIn redactor.Maskable item.body.toList other.body.toList ->
    ∀ row otherRow, Stores redactor services job state item row ->
      Stores redactor services job state other otherRow ->
      ApartIn IsToken row.title.toList otherRow.title.toList ∧
        ApartIn IsToken row.body.toList otherRow.body.toList

/-- The bodies can be cut into parts, the same ones apart from addresses and terms,
in which `redact` finds what it finds in the bodies. -/
structure Separable (redactor : Redactor) (body other : List Char) (parts others : List Part) : Prop where
  written : body = written parts ∧ other = written others
  same : List.Forall₂ SamePlain parts others
  maskable : ∀ text, .hidden text ∈ parts ++ others -> redactor.Maskable text
  separates : redactor.Separates parts ∧ redactor.Separates others

theorem eq_of_clean {one other : List Char} {text : String} (clean : Clean redactor text)
    (same : text.toList = one) (apart : ApartIn redactor.Maskable one other) : one = other := by
  rcases apart with ⟨parts, others, rfl, rfl, alike, maskable⟩
  have noHidden : ∀ hidden, .hidden hidden ∉ parts := by
    intro hidden member
    have inside : hidden <:+: written parts := by
      rcases List.append_of_mem member with ⟨before, after, rfl⟩
      refine ⟨written before, written after, ?_⟩
      rw [Regex.written_append, Regex.written_cons, List.append_assoc]
      rfl
    have noAddress := clean.noAddress
    rw [same] at noAddress
    rcases maskable hidden (List.mem_append_left others member) with ⟨address, rfl⟩ | term
    · exact Bool.eq_false_iff.mp noAddress ((search_email_iff _).mpr ⟨address, inside⟩)
    · have noTerm := clean.noTerm hidden term
      rw [same] at noTerm
      exact Bool.eq_false_iff.mp noTerm ((contains_iff _ _).mpr inside)
  have every : parts = others := by
    clear maskable same
    induction alike with
    | nil => rfl
    | cons here _ ih =>
      cases here with
      | plain text =>
        rw [ih fun hidden member => noHidden hidden (List.mem_cons_of_mem _ member)]
      | hidden one other => exact (noHidden one List.mem_cons_self).elim
  rw [every]

/-- For every item and every vocabulary: when a row is masked, exactly, and when the
rows of two items which differ in addresses and terms alone do so in tokens alone. -/
theorem rows_masked (redactor : Redactor) (services : Services) (job : Job Cursor)
    (state : RunState Cursor) (item : BackfillItem) :
    (StoresMasked redactor services job state item <->
      (Accepts redactor services job state item -> Showable redactor item)) ∧
    ∀ other, (Accepts redactor services job state item -> Showable redactor item) ->
      (ApartIn redactor.Maskable item.body.toList other.body.toList ->
        ∃ parts others, Separable redactor item.body.toList other.body.toList parts others) ->
      StoredAlike redactor services job state item other := by
  refine ⟨storesMasked_iff redactor services job state item, ?_⟩
  intro other showable separable titles bodies row otherRow stores otherStores
  rcases separable bodies with ⟨parts, others, separable⟩
  rcases stores_iff.mp stores with ⟨accepts, embedding, _, rfl⟩
  rcases stores_iff.mp otherStores with ⟨_, otherEmbedding, _, rfl⟩
  constructor
  · have same := eq_of_clean (showable accepts).title rfl titles
    have plain : ∀ text : List Char, ApartIn IsToken text text := fun text =>
      ⟨[.plain text], [.plain text], (List.append_nil text).symm, (List.append_nil text).symm,
        .cons (.plain text) .nil, fun _ member => by simp at member⟩
    dsimp only [knowledgeRow]
    rw [← same]
    exact plain _
  · dsimp only [knowledgeRow]
    unfold masked
    rw [String.toList_ofList, String.toList_ofList, separable.written.1, separable.written.2]
    exact Redactor.redact_apartIn separable.same separable.maskable separable.separates.1
      separable.separates.2

def mailMessage : BackfillItem where
  sourceKind := "slack_msg"
  sourceNativeId := "C1:1700000000.000100"
  sourceUri := "slack://msg/C1/1700000000.000100"
  sourceCreatedAt := 1700000000000100
  sourceUpdatedAt := 1700000000000100
  title := "[#general] write to bob@example.com"
  body := "write to bob@example.com"
  author := some "U1"
  parentRef := none

def willing : Services := ⟨.ok .keep, none, fun _ => .ok [], none, none⟩

def mailJob : Job Nat := ⟨1, false, 100, ⟨[], none⟩, fun _ => 0, 0⟩

/-- The address is masked in the body of the row and stays in its title. -/
theorem address_in_title :
    Not (StoresMasked (Redactor.default .ascii fun _ => false) willing mailJob
      { knowledge := [], sources := [] } mailMessage) := by
  intro safe
  have accepts : Accepts (Redactor.default .ascii fun _ => false) willing mailJob
      { knowledge := [], sources := [] } mailMessage :=
    ⟨by decide, by decide +kernel, ⟨[], rfl⟩, rfl, rfl⟩
  have clean := (safe.columns _ (stores_iff.mpr ⟨accepts, [], rfl, rfl⟩)).1.noAddress
  revert clean
  decide +kernel

def question (asked : String) : BackfillItem :=
  { mailMessage with title := "[#general]", body := "ask " ++ asked ++ " at 555 1234567" }

/-- One item names a client and the other an address. -/
theorem rows_masked_questions :
    StoredAlike (Redactor.knowing "Acme" (by decide)) willing mailJob { knowledge := [], sources := [] }
      (question "Acme") (question "bob@example.com") := by
  refine (rows_masked _ willing mailJob _ (question "Acme")).2 _ ?_ ?_
  · intro _
    have noTerm : ∀ term ∈ ["Acme".toList], Knowledge.contains
        ((Redactor.knowing "Acme" (by decide)).redact (question "Acme").body.toList).1 term = false := by
      decide +kernel
    exact ⟨⟨by decide +kernel, by decide +kernel⟩, by decide +kernel, fun term member _ =>
      noTerm term member⟩
  · intro _
    refine ⟨[.plain "ask ".toList, .hidden "Acme".toList, .plain " at 555 1234567".toList],
      [.plain "ask ".toList, .hidden "bob@example.com".toList, .plain " at 555 1234567".toList],
      ⟨by decide +kernel, by decide +kernel⟩, ?_, ?_, ?_⟩
    · exact .cons (.plain _) (.cons (.hidden _ _) (.cons (.plain _) .nil))
    · intro text member
      have parts : text = "Acme".toList ∨ text = "bob@example.com".toList := by
        simpa using member
      rcases parts with rfl | rfl
      · exact .inr List.mem_cons_self
      · exact .inl ⟨⟨'b', "ob".toList, "example".toList, "co".toList, 'm', rfl,
          List.all_eq_true.mp (by decide), by decide, List.all_eq_true.mp (by decide),
          List.all_eq_true.mp (by decide), rfl⟩, by decide⟩
    · unfold Redactor.Separates
      exact ⟨by decide +kernel, by decide +kernel⟩

end Backfill
end BreadMind
