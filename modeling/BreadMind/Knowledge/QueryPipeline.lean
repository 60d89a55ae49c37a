import BreadMind.Knowledge.Redactor
import BreadMind.Knowledge.Retriever

namespace BreadMind
namespace Knowledge

open Execution
open Execution.Program

/-!
# Questions and the secrets in them

A question is classified, looked up, masked and put before the model together
with what the search has found.  The guard against secrets reads the masked
question.

The collaborators answer out of a world of their own, which every call may
change.  Metrics and tracing are left out.
-/

inductive QueryFailure where
  | secretDetected (message : String)
  | allProvidersFailed
  | insufficientEvidence
  | typeError (message : String)
  | raised (message : String)
  deriving DecidableEq

structure IncomingMessage where
  text : String
  userId : String
  channelId : String
  platform : String

structure OutgoingMessage where
  text : String
  channelId : String
  platform : String

structure ChatMessage where
  role : String
  content : String

structure ChatAnswer where
  content : Option String
  inputTokens : Nat
  outputTokens : Nat

inductive Confidence where
  | high
  | medium
  | low
  deriving DecidableEq

def Confidence.value : Confidence -> String
  | .high => "high"
  | .medium => "medium"
  | .low => "low"

structure EnforcedAnswer where
  text : String
  citations : List KnowledgeSource

/-! ## The collaborators -/

abbrev Replies (World Value : Type) := World -> Except QueryFailure Value × World

structure RedactorPort (World RestoreMap : Type) where
  redact : String -> Replies World (String × RestoreMap)
  abortIfSecrets : String -> Except QueryFailure Unit
  restore : String -> RestoreMap -> Replies World String

structure QuotaTracker (World : Type) where
  isExceeded : String -> Replies World Bool
  charge : String -> Nat -> Replies World Unit

structure QueryCache (World : Type) where
  get : String -> String -> String -> Replies World (Option String)
  set : String -> String -> String -> String -> Replies World Unit

structure QueryAudit where
  actor : String
  subjectId : String
  projectId : Option String
  confidence : String
  answerId : String
  tokens : Nat

structure QueryPipeline (World RestoreMap : Type) where
  classes : CharClasses
  search : String -> String -> Option String -> Nat -> Replies World (List KBHit)
  redactor : RedactorPort World RestoreMap
  chat : List ChatMessage -> Replies World ChatAnswer
  classify : String -> Except QueryFailure (Option String)
  cache : QueryCache World
  quota : Option (QuotaTracker World)
  projectResolver : Option (String -> String -> Replies World (Option String))
  -- the verdict which the reviewer reads in an answer
  readVerdict : String -> Option String
  answerId : Replies World String
  audit : QueryAudit -> Replies World Unit

structure QueryState (World : Type) where
  world : World
  chatted : List (List ChatMessage)

variable {World RestoreMap : Type}

abbrev QueryProgram (World Value : Type) := Program (QueryState World) QueryFailure Value

def consult {Value : Type} (replies : Replies World Value) : QueryProgram World Value :=
  ExceptT.mk fun state =>
    let answered := replies state.world
    (answered.1, { state with world := answered.2 })

def IncomingMessage.reply (incoming : IncomingMessage) (text : String) : OutgoingMessage :=
  ⟨text, incoming.channelId, incoming.platform⟩

def firstLetters (limit : Nat) (text : String) : String :=
  String.ofList (text.toList.take limit)

def snippets (limit : Nat) (hits : List KBHit) : String :=
  "\n".intercalate (hits.map fun hit =>
    "[#" ++ toString hit.knowledgeId ++ "] " ++ hit.title ++ ": " ++ firstLetters limit hit.body)

def formatSearchOnly (hits : List KBHit) : String :=
  if hits.isEmpty then "검색만 모드: 관련 KB 없음."
  else
    "\n".intercalate ("검색만 모드(일일 토큰 초과) — 관련 KB Top-3:" :: (hits.take 3).map fun hit =>
        ("• [#" ++ toString hit.knowledgeId ++ "] " ++ hit.title ++ " " ++
          ((hit.sources.head?.map KnowledgeSource.sourceUri).getD "")).trimAsciiEnd.toString)

def hasStrongSignals (hits : List KBHit) : Bool :=
  decide (3 ≤ hits.length) && hits.head?.any fun hit => decide (85 / 100 ≤ hit.score)

def confidenceBadge : Confidence -> String
  | .high => "🟢"
  | .medium => "🟡"
  | .low => "🔴"

def formatAnswer (body : String) (enforced : EnforcedAnswer) (confidence : Confidence)
    (answerId : String) : String :=
  let cites := enforced.citations.map fun source =>
    "<" ++ source.sourceUri ++ "|" ++ source.sourceType ++ ">"
  "\n".intercalate ([body] ++
    (if cites.isEmpty then [] else ["📎 출처: " ++ ", ".intercalate cites]) ++
    ["신뢰도: " ++ confidenceBadge confidence] ++
    (if confidence = .low then ["⚠️ 담당자 확인 권장"] else []) ++ ["answer_id=" ++ answerId])

namespace QueryPipeline

variable (pipeline : QueryPipeline World RestoreMap)

def chatWith (messages : List ChatMessage) : QueryProgram World ChatAnswer := do
  modify fun state => { state with chatted := state.chatted ++ [messages] }
  consult (pipeline.chat messages)

/-- `_CITE_RE`. -/
def citationPattern : Regex.Pattern :=
  .all [.literal "[#", .oneOrMore pipeline.classes.isDigit, .literal "]"]

variable (text : String)

def cited : List Nat :=
  (Regex.findAll pipeline.classes.isWord pipeline.citationPattern text.toList).map fun found =>
    ((found.drop 2).dropLast).foldl (fun number digit =>
      number * 10 + pipeline.classes.digitValue digit) 0

def isSupported (hits : List KBHit) : Bool :=
  let numbers := pipeline.cited text
  !numbers.isEmpty && numbers.all fun number => hits.any fun hit => hit.knowledgeId == number

/-- `_collect_sources`: each source once, by its type and address. -/
def collectSources (hits : List KBHit) : List KnowledgeSource :=
  ((pipeline.cited text).flatMap fun number =>
    ((hits.filter fun hit => hit.knowledgeId == number).getLast?.map KBHit.sources).getD []).foldl
    (fun kept source =>
      if kept.any fun other => other.sourceType == source.sourceType &&
          other.sourceUri == source.sourceUri then kept
      else kept ++ [source]) []

variable (draft : String)

def regenerate (hits : List KBHit) : QueryProgram World String := do
  let answer ← pipeline.chatWith [
    ⟨"system", "You MUST cite every factual claim with [#<id>] referencing only the IDs listed " ++
      "below. Do NOT invent IDs. If a claim cannot be supported by any listed snippet, drop the " ++
      "claim."⟩,
    ⟨"user", "KB snippets:\n" ++ snippets 400 hits ++ "\n\nOriginal draft (missing citations):\n" ++
      draft ++ "\n\nRewrite the answer with [#<id>] citations on every factual sentence."⟩]
  pure (answer.content.getD "")

/-- `enforce`; a draft without support is written once again. -/
def enforce (hits : List KBHit) : QueryProgram World EnforcedAnswer := do
  if pipeline.isSupported draft hits then pure ⟨draft, pipeline.collectSources draft hits⟩
  else do
    let again ← pipeline.regenerate draft hits
    if pipeline.isSupported again hits then pure ⟨again, pipeline.collectSources again hits⟩
    else throw .insufficientEvidence

/-- `score` of the self-reviewer. -/
def reviewScore (answer : String) (hits : List KBHit) : QueryProgram World Confidence := do
  if hits.isEmpty then pure .low
  else do
    let verdict ← pipeline.chatWith [
      ⟨"system", "You are an adversarial reviewer. Given an answer and the KB snippets it is based " ++
        "on, construct the strongest counter-argument for why the answer could be wrong. Reply " ++
        "with a single line: 'verdict: <STRONG|MODERATE|WEAK>. Reason: <one sentence>.'"⟩,
      ⟨"user", "Answer:\n" ++ answer ++ "\n\nKB snippets:\n" ++ snippets 300 hits⟩]
    pure (match pipeline.readVerdict (verdict.content.getD "") with
      | none | some "STRONG" => .low
      | some "WEAK" => .high
      | some _ => .medium)

/-! ## `answer` -/

variable (incoming : IncomingMessage)

/-- The project of the message, as its name in the cache. -/
def resolveProject : QueryProgram World (Option String) :=
  match pipeline.projectResolver with
  | none => pure none
  | some resolve => consult (resolve incoming.userId incoming.channelId)

def quotaExceeded : QueryProgram World Bool :=
  match pipeline.quota with
  | none => pure false
  | some quota => consult (quota.isExceeded incoming.userId)

def sensitiveText (category : String) : String :=
  "이 질의는 민감 카테고리(" ++ category ++ ")로 분류되어 답변이 제한됩니다. 담당자 채널로 문의해주세요."

variable (project : Option String)

def gather : QueryProgram World (Except OutgoingMessage (List KBHit)) := do
  match ← consult (pipeline.cache.get incoming.text incoming.userId (project.getD "")) with
  | some cached => pure (.error (incoming.reply cached))
  | none => do
    let hits ← consult (pipeline.search incoming.text incoming.userId project 5)
    let exceeded ← pipeline.quotaExceeded incoming
    if exceeded then pure (.error (incoming.reply (formatSearchOnly hits)))
    else pure (.ok hits)

/-- Everything before the redactor: an answer, or the project and the hits. -/
def beforeRedaction : QueryProgram World (Except OutgoingMessage (Option String × List KBHit)) := do
  match ← Program.ofExcept (pipeline.classify incoming.text) with
  | some category => pure (.error (incoming.reply (sensitiveText category)))
  | none => do
    let project ← pipeline.resolveProject incoming
    match ← pipeline.gather incoming project with
    | .error reply => pure (.error reply)
    | .ok hits => pure (.ok (project, hits))

def secretText : String := "질의에 비밀값이 포함되어 있습니다. 제거 후 재시도 해주세요."

def questionFor (masked : String) (hits : List KBHit) : List ChatMessage :=
  [⟨"system", "Answer using ONLY the KB snippets below. Cite every factual sentence with [#<id>] " ++
      "referencing only provided IDs."⟩,
    ⟨"user", "KB:\n" ++ snippets 400 hits ++ "\n\nQuestion: " ++ masked⟩]

def chargeQuota (answer : ChatAnswer) : QueryProgram World Unit :=
  match pipeline.quota with
  | none => pure ()
  | some quota => consult (quota.charge incoming.userId (answer.inputTokens + answer.outputTokens))

/-- The model's answer, paid for; nothing if all providers have failed. -/
def askModel (masked : String) (hits : List KBHit) : QueryProgram World (Option ChatAnswer) :=
  tryCatch
    (do
      let answer ← pipeline.chatWith (questionFor masked hits)
      pipeline.chargeQuota incoming answer
      pure (some answer))
    fun failure => if failure = .allProvidersFailed then pure none else throw failure

def enforceDraft (hits : List KBHit) : QueryProgram World (Option EnforcedAnswer) :=
  tryCatch
    (do
      let enforced ← pipeline.enforce draft hits
      pure (some enforced))
    fun failure => if failure = .insufficientEvidence then pure none else throw failure

/-- The confidence in an answer; strong signals spare the review. -/
def confidenceIn (enforced : EnforcedAnswer) (hits : List KBHit) : QueryProgram World Confidence :=
  if hasStrongSignals hits then pure .high else pipeline.reviewScore enforced.text hits

def finishAnswer (hits : List KBHit)
    (restoreMap : RestoreMap) (answer : ChatAnswer) (enforced : EnforcedAnswer) :
    QueryProgram World OutgoingMessage := do
  let confidence ← pipeline.confidenceIn enforced hits
  let restored ← consult (pipeline.redactor.restore enforced.text restoreMap)
  let answerId ← consult pipeline.answerId
  let formatted := formatAnswer restored enforced confidence answerId
  consult (pipeline.cache.set incoming.text incoming.userId (project.getD "") formatted)
  consult (pipeline.audit
    { actor := incoming.userId
      subjectId := ",".intercalate (hits.map fun hit => toString hit.knowledgeId)
      projectId := project
      confidence := confidence.value
      answerId := answerId
      tokens := answer.inputTokens + answer.outputTokens })
  pure (incoming.reply formatted)

/-- The masked question before the model. -/
def askMasked (hits : List KBHit)
    (masked : String) (restoreMap : RestoreMap) : QueryProgram World OutgoingMessage := do
  match ← pipeline.askModel incoming masked hits with
  | none => pure (incoming.reply ("AI 답변 불가(모든 provider 실패), 검색만 모드:\n" ++ formatSearchOnly hits))
  | some answer => do
    match ← pipeline.enforceDraft (answer.content.getD "") hits with
    | none => pure (incoming.reply ("확실한 답변 불가, 관련 근거 제시:\n" ++ formatSearchOnly hits))
    | some enforced => pipeline.finishAnswer incoming project hits restoreMap answer enforced

/-- The question is masked, and then the guard reads what is left. -/
def afterGathering (hits : List KBHit) : QueryProgram World OutgoingMessage := do
  let redacted ← consult (pipeline.redactor.redact incoming.text)
  match pipeline.redactor.abortIfSecrets redacted.1 with
  | .error _ => pure (incoming.reply secretText)
  | .ok _ => pipeline.askMasked incoming project hits redacted.1 redacted.2

def answer : QueryProgram World OutgoingMessage := do
  match ← pipeline.beforeRedaction incoming with
  | .error reply => pure reply
  | .ok (project, hits) => pipeline.afterGathering incoming project hits

end QueryPipeline

/-- `_RedactorSyncAdapter`: masked by the named patterns, with nothing to restore. -/
def Redactor.syncAdapter (redactor : Redactor) : RedactorPort World String where
  redact text world := (.ok (String.ofList (redactor.redactPrompt text.toList), ""), world)
  abortIfSecrets text :=
    match redactor.abortIfSecrets text.toList with
    | .error message => .error (.secretDetected message)
    | .ok () => .ok ()
  restore text _ world := (.ok text, world)

/-! ## Secrets and the model -/

namespace QueryPipeline

variable (pipeline : QueryPipeline World RestoreMap)

variable (world : World) (incoming : IncomingMessage)

def chatted : List (List ChatMessage) :=
  ((pipeline.answer incoming).run.run ⟨world, []⟩).2.chatted

/-- The guard of the redactor aborts on the question as it was asked. -/
def Secret (question : String) : Prop :=
  ∃ failure, pipeline.redactor.abortIfSecrets question = .error failure

/-- A question with a secret in it, and all that is made of it, stays away from the model. -/
def Withholds : Prop :=
  pipeline.Secret incoming.text -> pipeline.chatted world incoming = []

/-- If the question gets as far as the redactor, then masking it raises, or the
guard aborts on the masked question too. -/
def Guarded : Prop :=
  ∀ found state, (pipeline.beforeRedaction incoming).run.run ⟨world, []⟩ = (.ok (.ok found), state) ->
    match (pipeline.redactor.redact incoming.text state.world).1 with
    | .error _ => True
    | .ok redacted => pipeline.Secret redacted.1

variable {pipeline}

theorem keeps_consult {Value : Type} (sent : List (List ChatMessage) -> Prop)
    (replies : Replies World Value) :
    Program.Keeps (fun state : QueryState World => sent state.chatted) (consult replies) := by
  intro state holds
  have run : (consult replies).run.run state =
      ((replies state.world).1, { state with world := (replies state.world).2 }) := rfl
  rw [run]
  generalize replies state.world = answered
  rcases answered with ⟨result, world⟩
  cases result <;> exact holds

variable (project : Option String)

theorem ensures_gather (sent : List (List ChatMessage)) :
    Program.Keeps (fun state => state.chatted = sent) (pipeline.gather incoming project) := by
  unfold gather
  refine ensures_bind _ (keeps_consult (· = sent) _) ?_
  intro cached
  cases cached with
  | some cached => exact ensures_pure fun _ same => same
  | none =>
    refine ensures_bind _ (keeps_consult (· = sent) _) ?_
    intro hits
    refine Program.keeps_bind ?_ ?_
    · unfold quotaExceeded
      cases pipeline.quota with
      | none => exact ensures_pure fun _ same => same
      | some quota => exact keeps_consult (· = sent) _
    · intro exceeded
      cases exceeded <;> exact ensures_pure fun _ same => same

theorem ensures_beforeRedaction (incoming : IncomingMessage) (sent : List (List ChatMessage)) :
    Program.Keeps (fun state => state.chatted = sent) (pipeline.beforeRedaction incoming) := by
  unfold beforeRedaction
  refine Program.keeps_bind ?_ ?_
  · exact ensures_ofExcept (fun _ _ _ same => same) (fun _ _ _ same => same)
  · intro category
    cases category with
    | some category => exact ensures_pure fun _ same => same
    | none =>
      refine Program.keeps_bind ?_ ?_
      · unfold resolveProject
        cases pipeline.projectResolver with
        | none => exact ensures_pure fun _ same => same
        | some resolve => exact keeps_consult (· = sent) _
      · intro project
        refine ensures_bind _ (ensures_gather incoming project sent) ?_
        intro gathered
        cases gathered <;> exact ensures_pure fun _ same => same

def KeepsAsked {Value : Type} (program : QueryProgram World Value) : Prop :=
  Ensures (fun state => state.chatted ≠ []) program (fun _ state => state.chatted ≠ [])
    (fun _ state => state.chatted ≠ [])

theorem keepsAsked_consult {Value : Type} (replies : Replies World Value) :
    KeepsAsked (consult replies) :=
  keeps_consult (· ≠ []) replies

theorem ensures_chatWith (before : QueryState World -> Prop) (messages : List ChatMessage) :
    Ensures before (pipeline.chatWith messages) (fun _ state => state.chatted ≠ [])
      (fun _ state => state.chatted ≠ []) := by
  refine ensures_bind (fun _ (state : QueryState World) => state.chatted ≠ []) ?_ ?_
  · apply ensures_modify
    intro state _
    exact List.append_ne_nil_of_right_ne_nil _ (List.cons_ne_nil _ _)
  · intro _
    exact keepsAsked_consult _

theorem keepsAsked_enforceDraft (draft : String) (hits : List KBHit) :
    KeepsAsked (pipeline.enforceDraft draft hits) := by
  unfold enforceDraft
  refine Program.keeps_tryCatch (Program.keeps_bind ?_ fun _ => Program.keeps_pure _) ?_
  · unfold enforce
    split
    · exact Program.keeps_pure _
    · refine Program.keeps_bind ?_ ?_
      · exact Program.keeps_bind (ensures_chatWith _ _) fun _ => Program.keeps_pure _
      · intro again
        split
        · exact Program.keeps_pure _
        · exact ensures_throw fun _ asked => asked
  · intro failure
    split
    · exact Program.keeps_pure none
    · exact ensures_throw fun _ asked => asked

theorem keepsAsked_finishAnswer (hits : List KBHit) (restoreMap : RestoreMap) (answer : ChatAnswer)
    (enforced : EnforcedAnswer) :
    KeepsAsked (pipeline.finishAnswer incoming project hits restoreMap answer enforced) := by
  unfold finishAnswer
  refine Program.keeps_bind ?_ ?_
  · unfold confidenceIn reviewScore
    split
    · exact Program.keeps_pure _
    · split
      · exact Program.keeps_pure _
      · exact Program.keeps_bind (ensures_chatWith _ _) fun _ => Program.keeps_pure _
  · intro confidence
    refine Program.keeps_bind (keepsAsked_consult _) fun restored => ?_
    refine Program.keeps_bind (keepsAsked_consult _) fun answerId => ?_
    refine Program.keeps_bind (keepsAsked_consult _) fun _ => ?_
    exact Program.keeps_bind (keepsAsked_consult _) fun _ => Program.keeps_pure _

theorem ensures_askMasked (before : QueryState World -> Prop) (incoming : IncomingMessage)
    (project : Option String) (hits : List KBHit) (masked : String) (restoreMap : RestoreMap) :
    Ensures before (pipeline.askMasked incoming project hits masked restoreMap)
      (fun _ state => state.chatted ≠ []) (fun _ state => state.chatted ≠ []) := by
  unfold askMasked
  refine ensures_bind (fun _ state => state.chatted ≠ []) ?_ ?_
  · unfold askModel
    refine ensures_tryCatch (ensures_bind _ (ensures_chatWith before _) ?_) ?_
    · intro answer
      refine Program.keeps_bind ?_ fun _ => Program.keeps_pure _
      unfold chargeQuota
      cases pipeline.quota with
      | none => exact Program.keeps_pure ()
      | some quota => exact keepsAsked_consult _
    · intro failure
      split
      · exact Program.keeps_pure none
      · exact ensures_throw fun _ asked => asked
  · intro answer
    cases answer with
    | none => exact Program.keeps_pure _
    | some answer =>
      refine Program.keeps_bind (keepsAsked_enforceDraft _ hits) ?_
      intro enforced
      cases enforced with
      | none => exact Program.keeps_pure _
      | some enforced => exact keepsAsked_finishAnswer incoming project hits restoreMap answer enforced

theorem chatted_afterGathering_iff
    (hits : List KBHit) {state : QueryState World} (unsent : state.chatted = []) :
    ((pipeline.afterGathering incoming project hits).run.run state).2.chatted = [] <->
      match (pipeline.redactor.redact incoming.text state.world).1 with
      | .error _ => True
      | .ok redacted => pipeline.Secret redacted.1 := by
  have run : (consult (pipeline.redactor.redact incoming.text)).run.run state =
      ((pipeline.redactor.redact incoming.text state.world).1,
        { state with world := (pipeline.redactor.redact incoming.text state.world).2 }) := rfl
  unfold afterGathering Secret
  rcases redacted : pipeline.redactor.redact incoming.text state.world with ⟨result, world⟩
  rw [redacted] at run
  cases result with
  | error failure =>
    rw [run_bind_error run]
    exact iff_of_true unsent trivial
  | ok masked =>
    rw [run_bind_ok run]
    dsimp only
    cases guard : pipeline.redactor.abortIfSecrets masked.1 with
    | error failure => exact iff_of_true unsent ⟨failure, rfl⟩
    | ok passed =>
      apply iff_of_false
      · exact Ensures.after (ensures_askMasked (fun _ => True) incoming project hits masked.1
          masked.2) trivial
      · rintro ⟨failure, impossible⟩
        cases impossible

/-- For every question: what is made of a secret stays away from the model exactly
if the question is guarded. -/
theorem withholds_iff (pipeline : QueryPipeline World RestoreMap) (world : World)
    (incoming : IncomingMessage) : pipeline.Withholds world incoming <->
      (pipeline.Secret incoming.text -> pipeline.Guarded world incoming) := by
  unfold Withholds chatted answer Guarded
  have before := @ensures_beforeRedaction _ _ pipeline incoming [] ⟨world, []⟩ rfl
  refine forall_congr' fun _ => ?_
  rcases ran : (pipeline.beforeRedaction incoming).run.run ⟨world, []⟩ with ⟨result, state⟩
  rw [ran] at before
  rcases result with failure | reply | ⟨project, hits⟩
  · rw [run_bind_error ran]
    refine iff_of_true before ?_
    intro found after impossible
    cases impossible
  · rw [run_bind_ok ran]
    refine iff_of_true before ?_
    intro found after impossible
    cases impossible
  · rw [run_bind_ok ran]
    rw [chatted_afterGathering_iff incoming project hits before]
    constructor
    · intro guarded found after same
      cases same
      exact guarded
    · intro guarded
      exact guarded (project, hits) state rfl

def unaided (redactor : RedactorPort Unit String) : QueryPipeline Unit String where
  classes := .ascii
  search _ _ _ _ world := (.ok [], world)
  redactor := redactor
  chat _ world := (.ok ⟨some "I do not know.", 1, 1⟩, world)
  classify _ := .ok none
  cache := { get := fun _ _ _ world => (.ok none, world), set := fun _ _ _ _ world => (.ok (), world) }
  quota := none
  projectResolver := none
  readVerdict _ := none
  answerId world := (.ok "0", world)
  audit _ world := (.ok (), world)

/-- A social security number is masked as a telephone number, and the guard lets it pass. -/
theorem masked_number_sent :
    Not ((unaided (Redactor.default .ascii fun _ => false).syncAdapter).Withholds ()
      ⟨"My SSN is 123-45-6789", "user", "channel", "slack"⟩) := by
  intro withheld
  have unsent := withheld ⟨.secretDetected "SSN pattern matched", by decide +kernel⟩
  revert unsent
  decide +kernel

end QueryPipeline

end Knowledge
end BreadMind
