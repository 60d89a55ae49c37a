import BreadMind.Execution.Logs
import BreadMind.Execution.TwoIndexes
import Mathlib.Logic.Function.Basic

namespace BreadMind
namespace Network

open Execution
open Function (update update_of_ne update_self)

/-!
# Join tokens

A join token lets workers into the network: at most so many of them, until it
expires or is revoked.  A manager keeps its tokens in memory, under the secret
and under the id, and the settings store keeps the list which was saved last.

Several managers may stand over one store, one after the other or side by side.
A new id and a new secret are random and long, and taken as not in use.  Times
are microseconds; clocks are not assumed to agree.
-/

structure JoinToken where
  tokenId : String
  secret : String
  createdAt : Int
  expiresAt : Int
  maxUses : Int := 1
  uses : Nat := 0
  createdBy : String := ""
  labels : List (String × String) := []
  revoked : Bool := false
  deriving DecidableEq

def JoinToken.isValid (token : JoinToken) (now : Int) : Bool :=
  !token.revoked && !decide (token.maxUses ≤ token.uses) && !decide (token.expiresAt < now)

/-- `_tokens` is the first index and `_by_id` the second one. -/
abbrev TokenManager := TwoIndexes JoinToken String String

structure TokenTtls where
  default : Int := 3600 * 1000000
  max : Int := 24 * 3600 * 1000000

namespace TokenManager

def newToken (ttls : TokenTtls) (now : Int) (ttl : Option Int) (maxUses : Int) (createdBy : String)
    (labels : List (String × String)) (tokenId secret : String) : JoinToken where
  tokenId := tokenId
  secret := secret
  createdAt := now
  expiresAt := now + (match ttl with
    | none => ttls.default
    | some ttl => min ttl ttls.max)
  maxUses := max 1 maxUses
  createdBy := createdBy
  labels := labels

variable (manager : TokenManager) (token : JoinToken)

def enter : TokenManager :=
  manager.insert JoinToken.secret JoinToken.tokenId token

def useOnce : JoinToken := { token with uses := token.uses + 1 }

def validateAndConsume (secret : String) (now : Int) : Option JoinToken × TokenManager :=
  match manager.findFirst secret with
  | none => (none, manager)
  | some (place, token) =>
    if token.isValid now then (some (useOnce token), manager.modify place useOnce)
    else (none, manager)

def withdraw : JoinToken := { token with revoked := true }

def revoke (tokenId : String) : Bool × TokenManager :=
  match manager.findSecond tokenId with
  | none => (false, manager)
  | some (place, _) => (true, manager.modify place withdraw)

variable (now : Int)

def isSpent : Bool :=
  token.revoked || decide (token.expiresAt < now) || decide (token.maxUses ≤ token.uses)

def spentSecrets : List String :=
  (manager.first.filter fun entry =>
    (manager.objects[entry.2]?).any fun token => isSpent token now).map Prod.fst

def cleanupExpired : TokenManager :=
  (manager.spentSecrets now).foldl (fun table secret => table.remove JoinToken.tokenId secret) manager

def savedTokens : List JoinToken :=
  (manager.second.filterMap fun entry => manager.objects[entry.2]?).filter fun token =>
    token.isValid now

/-- One round of the loop in `load_from_db`. -/
def readBack (manager : TokenManager) (token : JoinToken) : TokenManager :=
  if token.isValid now then manager.enter token else manager

def load (saved : List JoinToken) (now : Int) : TokenManager :=
  saved.foldl (readBack now) manager

end TokenManager

/-! ## Managers over one store -/

inductive TokenEvent where
  | consumed (tokenId : String) (now : Int)
  | revoked (tokenId : String)
  deriving DecidableEq

def TokenEvent.tokenId : TokenEvent -> String
  | consumed tokenId _ => tokenId
  | revoked tokenId => tokenId

/-- The tokens created so far and the log of what was done with them are kept
beside the code, which has neither. -/
structure JoinTokens where
  managers : Nat -> TokenManager := fun _ => {}
  saved : Option (List JoinToken) := none
  issued : List JoinToken := []
  log : List TokenEvent := []

inductive TokenInput where
  | create (manager : Nat) (now : Int) (ttl : Option Int) (maxUses : Int) (createdBy : String)
      (labels : List (String × String)) (tokenId secret : String)
  | consume (manager : Nat) (secret : String) (now : Int)
  | revoke (manager : Nat) (tokenId : String)
  | cleanup (manager : Nat) (now : Int)
  | save (manager : Nat) (now : Int)
  | load (manager : Nat) (now : Int)
  /-- The process ends, and with it what its manager had in memory. -/
  | restart (manager : Nat)

namespace JoinTokens

variable (ttls : TokenTtls)

def setManager (state : JoinTokens) (index : Nat) (manager : TokenManager) : JoinTokens :=
  { state with managers := update state.managers index manager }

def create (state : JoinTokens) (index : Nat) (token : JoinToken) : JoinTokens :=
  if token.tokenId ∈ state.issued.map JoinToken.tokenId ∨
      token.secret ∈ state.issued.map JoinToken.secret then state
  else
    { state.setManager index ((state.managers index).enter token) with
      issued := state.issued ++ [token] }

def consume (state : JoinTokens) (index : Nat) (secret : String) (now : Int) : JoinTokens :=
  match (state.managers index).validateAndConsume secret now with
  | (some token, manager) =>
    { state.setManager index manager with log := state.log ++ [.consumed token.tokenId now] }
  | (none, manager) => state.setManager index manager

def revoke (state : JoinTokens) (index : Nat) (tokenId : String) : JoinTokens :=
  match (state.managers index).revoke tokenId with
  | (true, manager) =>
    { state.setManager index manager with log := state.log ++ [.revoked tokenId] }
  | (false, manager) => state.setManager index manager

def load (state : JoinTokens) (index : Nat) (now : Int) : JoinTokens :=
  match state.saved with
  | none => state
  | some saved => state.setManager index ((state.managers index).load saved now)

def step (state : JoinTokens) : TokenInput -> JoinTokens
  | .create index now ttl maxUses createdBy labels tokenId secret =>
    state.create index
      (TokenManager.newToken ttls now ttl maxUses createdBy labels tokenId secret)
  | .consume index secret now => state.consume index secret now
  | .revoke index tokenId => state.revoke index tokenId
  | .cleanup index now => state.setManager index ((state.managers index).cleanupExpired now)
  | .save index now => { state with saved := some ((state.managers index).savedTokens now) }
  | .load index now => state.load index now
  | .restart index => state.setManager index {}

def machine : Machine JoinTokens TokenInput where
  initial := {}
  step := step ttls

def consumes (tokenId : String) : TokenEvent -> Bool
  | .consumed other _ => decide (other = tokenId)
  | .revoked _ => false

def consumptions (log : List TokenEvent) (tokenId : String) : Nat :=
  log.countP (consumes tokenId)

/-- No consumption stands behind a revocation of its token. -/
def Unrevoked (before : List TokenEvent) : TokenEvent -> Prop
  | .consumed tokenId _ => TokenEvent.revoked tokenId ∉ before
  | .revoked _ => True

/-- What holds whatever is saved and loaded. -/
structure Sound (state : JoinTokens) : Prop where
  inTime : ∀ token ∈ state.issued, ∀ now,
    TokenEvent.consumed token.tokenId now ∈ state.log -> now ≤ token.expiresAt
  sameTokens : ∀ index,
    TwoIndexes.Agrees JoinToken.secret JoinToken.tokenId (state.managers index)

structure Respected (state : JoinTokens) : Prop where
  bounded : ∀ token ∈ state.issued,
    (consumptions state.log token.tokenId : Int) ≤ token.maxUses
  unrevoked : Each Unrevoked state.log

/-- A load brings back no token whose stored record misses a use or the
revocation, and none which another manager has in memory. -/
def LoadsCurrent (state : JoinTokens) : TokenInput -> Prop
  | .load index now => ∀ saved, state.saved = some saved -> ∀ token ∈ saved,
      token.isValid now = true ->
        consumptions state.log token.tokenId ≤ token.uses ∧
        TokenEvent.revoked token.tokenId ∉ state.log ∧
        ∀ other ≠ index,
          (state.managers other).second.lookup token.tokenId = none
  | _ => True

/-! ## What a manager has in memory -/

/-- The token is one of those issued, apart from its use count and its revocation. -/
def Genuine (issued : List JoinToken) (token : JoinToken) : Prop :=
  ∃ original ∈ issued, original.tokenId = token.tokenId ∧
    original.secret = token.secret ∧ original.maxUses = token.maxUses ∧
    original.expiresAt = token.expiresAt

structure Distinct (issued : List JoinToken) : Prop where
  ids : (issued.map JoinToken.tokenId).Nodup
  secrets : (issued.map JoinToken.secret).Nodup

abbrev Held (manager : TokenManager) (place : Nat) (token : JoinToken) : Prop :=
  TwoIndexes.Holds JoinToken.secret JoinToken.tokenId manager place token

structure WellKept (issued : List JoinToken) (manager : TokenManager) : Prop where
  agrees : TwoIndexes.Agrees JoinToken.secret JoinToken.tokenId manager
  genuine : ∀ token ∈ manager.objects, Genuine issued token

variable {issued : List JoinToken} {manager : TokenManager} {log : List TokenEvent}

variable {place : Nat} {token : JoinToken}

theorem Held.mem (held : Held manager place token) : token ∈ manager.objects :=
  List.mem_of_getElem? held.there

theorem Genuine.same_id (distinct : Distinct issued) {first second : JoinToken}
    (one : Genuine issued first) (two : Genuine issued second) :
    first.secret = second.secret <-> first.tokenId = second.tokenId := by
  rcases one with ⟨original, member, id, secret, _⟩
  rcases two with ⟨other, otherMember, otherId, otherSecret, _⟩
  rw [← id, ← secret, ← otherId, ← otherSecret]
  constructor
  · intro same
    exact congrArg _ (List.inj_on_of_nodup_map distinct.secrets member otherMember same)
  · intro same
    exact congrArg _ (List.inj_on_of_nodup_map distinct.ids member otherMember same)

theorem Genuine.mono {more : List JoinToken} (genuine : Genuine issued token)
    (grown : ∀ original ∈ issued, original ∈ more) : Genuine more token := by
  rcases genuine with ⟨original, member, rest⟩
  exact ⟨original, grown original member, rest⟩

theorem WellKept.mono {more : List JoinToken} (kept : WellKept issued manager)
    (grown : ∀ original ∈ issued, original ∈ more) : WellKept more manager :=
  ⟨kept.agrees, fun token member => (kept.genuine token member).mono grown⟩

theorem wellKept_empty : WellKept issued {} := by
  refine ⟨TwoIndexes.agrees_empty, ?_⟩
  intro token member
  exact (List.not_mem_nil member).elim

theorem WellKept.enter (distinct : Distinct issued) (kept : WellKept issued manager)
    (genuine : Genuine issued token) : WellKept issued (manager.enter token) := by
  refine ⟨kept.agrees.insert ?_, ?_⟩
  · intro place held holds
    exact Genuine.same_id distinct (kept.genuine held (Held.mem holds)) genuine
  · intro other member
    rcases List.mem_append.mp member with old | new
    · exact kept.genuine other old
    · exact List.mem_singleton.mp new ▸ genuine

theorem WellKept.modify (kept : WellKept issued manager) (place : Nat)
    {change : JoinToken -> JoinToken} (same : ∀ token, (change token).tokenId = token.tokenId ∧
      (change token).secret = token.secret ∧ (change token).maxUses = token.maxUses ∧
      (change token).expiresAt = token.expiresAt) :
    WellKept issued (manager.modify place change) := by
  refine ⟨kept.agrees.modify (fun token => (same token).2.1) (fun token => (same token).1) place, ?_⟩
  intro token member
  rcases List.mem_iff_getElem?.mp member with ⟨other, there⟩
  change (manager.objects.modify place change)[other]? = some token at there
  rw [List.getElem?_modify] at there
  rcases Option.map_eq_some_iff.mp there with ⟨old, oldThere, now⟩
  rcases kept.genuine old (List.mem_of_getElem? oldThere) with
    ⟨original, issued_, id, secret, limit, expiry⟩
  refine ⟨original, issued_, ?_⟩
  rw [← now]
  by_cases here : place = other
  · rw [if_pos here]
    rcases same old with ⟨newId, newSecret, newLimit, newExpiry⟩
    exact ⟨id.trans newId.symm, secret.trans newSecret.symm, limit.trans newLimit.symm,
      expiry.trans newExpiry.symm⟩
  · rw [if_neg here]
    exact ⟨id, secret, limit, expiry⟩

theorem wellKept_useOnce (kept : WellKept issued manager) (place : Nat) :
    WellKept issued (manager.modify place TokenManager.useOnce) :=
  kept.modify place fun _ => ⟨rfl, rfl, rfl, rfl⟩

theorem wellKept_withdraw (kept : WellKept issued manager) (place : Nat) :
    WellKept issued (manager.modify place TokenManager.withdraw) :=
  kept.modify place fun _ => ⟨rfl, rfl, rfl, rfl⟩

variable (secrets : List String)

theorem held_of_foldl_remove : ∀ {manager : TokenManager}, Held (secrets.foldl (fun table secret =>
      table.remove JoinToken.tokenId secret) manager) place token -> Held manager place token := by
  induction secrets with
  | nil => exact fun held => held
  | cons secret rest ih =>
    intro manager held
    exact (ih held).of_remove

theorem agrees_foldl_remove : ∀ {manager : TokenManager},
      TwoIndexes.Agrees JoinToken.secret JoinToken.tokenId manager ->
      TwoIndexes.Agrees JoinToken.secret JoinToken.tokenId (secrets.foldl (fun table secret =>
        table.remove JoinToken.tokenId secret) manager) := by
  induction secrets with
  | nil => exact fun agrees => agrees
  | cons secret rest ih =>
    intro manager agrees
    exact ih (agrees.remove secret)

theorem objects_foldl_remove : ∀ manager : TokenManager, (secrets.foldl (fun table secret =>
      table.remove JoinToken.tokenId secret) manager).objects = manager.objects := by
  induction secrets with
  | nil => exact fun _ => rfl
  | cons secret rest ih =>
    intro manager
    exact (ih _).trans (manager.objects_remove secret)

theorem WellKept.cleanup (kept : WellKept issued manager) (now : Int) :
    WellKept issued (manager.cleanupExpired now) := by
  refine ⟨agrees_foldl_remove _ kept.agrees, ?_⟩
  intro token member
  exact kept.genuine token (objects_foldl_remove _ manager ▸ member)

theorem WellKept.load (distinct : Distinct issued) (now : Int) (saved : List JoinToken)
    (genuine : ∀ token ∈ saved, Genuine issued token) :
    ∀ {manager : TokenManager}, WellKept issued manager ->
      WellKept issued (manager.load saved now) := by
  induction saved with
  | nil => exact fun kept => kept
  | cons token rest ih =>
    intro manager kept
    refine ih (fun other member => genuine other (List.mem_cons_of_mem _ member)) ?_
    unfold TokenManager.readBack
    split
    · exact kept.enter distinct (genuine token List.mem_cons_self)
    · exact kept

theorem held_of_load (now : Int) (saved : List JoinToken) :
    ∀ {manager : TokenManager}, Held (manager.load saved now) place token ->
      Held manager place token ∨ (token ∈ saved ∧ token.isValid now = true) := by
  induction saved with
  | nil => exact fun held => .inl held
  | cons head rest ih =>
    intro manager held
    rcases ih held with before | ⟨member, valid⟩
    · unfold TokenManager.readBack at before
      split at before
      case isTrue valid =>
        rcases before.of_insert with same | old
        · exact .inr ⟨same ▸ List.mem_cons_self, same ▸ valid⟩
        · exact .inl old
      case isFalse => exact .inl before
    · exact .inr ⟨List.mem_cons_of_mem _ member, valid⟩

theorem genuine_savedTokens (kept : WellKept issued manager) {now : Int}
    (member : token ∈ manager.savedTokens now) : Genuine issued token := by
  rcases List.mem_filterMap.mp (List.mem_filter.mp member).1 with ⟨entry, _, there⟩
  exact kept.genuine token (List.mem_of_getElem? there)

/-! ## What holds whatever is saved and loaded -/

structure Kept (state : JoinTokens) : Prop where
  distinct : Distinct state.issued
  managers : ∀ index, WellKept state.issued (state.managers index)
  saved : ∀ saved, state.saved = some saved -> ∀ token ∈ saved,
    Genuine state.issued token
  known : ∀ event ∈ state.log, event.tokenId ∈ state.issued.map JoinToken.tokenId
  inTime : ∀ token ∈ state.issued, ∀ now,
    TokenEvent.consumed token.tokenId now ∈ state.log -> now ≤ token.expiresAt

variable {state : JoinTokens}

theorem kept_setManager (kept : Kept state) (index : Nat) {manager : TokenManager}
    (well : WellKept state.issued manager) : Kept (state.setManager index manager) := by
  refine ⟨kept.distinct, ?_, kept.saved, kept.known, kept.inTime⟩
  intro other
  change WellKept state.issued (update state.managers index manager other)
  by_cases same : other = index
  · rw [same, update_self]
    exact well
  · rw [update_of_ne same]
    exact kept.managers other

variable {event : TokenEvent}

theorem kept_log (kept : Kept state)
    (genuine : Genuine state.issued token) (about : event.tokenId = token.tokenId)
    (timely : ∀ now, event = .consumed token.tokenId now -> now ≤ token.expiresAt) :
    Kept { state with log := state.log ++ [event] } := by
  rcases genuine with ⟨original, member, id, _, _, expiry⟩
  refine ⟨kept.distinct, kept.managers, kept.saved, ?_, ?_⟩
  · intro other logged
    rcases List.mem_append.mp logged with old | new
    · exact kept.known other old
    · rw [List.mem_singleton.mp new, about, ← id]
      exact List.mem_map_of_mem member
  · intro other otherMember now logged
    rcases List.mem_append.mp logged with old | new
    · exact kept.inTime other otherMember now old
    · have same := List.mem_singleton.mp new
      have sameId : other.tokenId = original.tokenId :=
        (congrArg TokenEvent.tokenId same).trans (about.trans id.symm)
      rw [List.inj_on_of_nodup_map kept.distinct.ids otherMember member sameId, expiry]
      refine timely now (same.symm.trans ?_)
      rw [sameId, id]

theorem kept_create (kept : Kept state) (index : Nat) (token : JoinToken) :
    Kept (state.create index token) := by
  unfold create
  split
  · exact kept
  case isFalse fresh =>
    rcases not_or.mp fresh with ⟨newId, newSecret⟩
    have grown : ∀ original ∈ state.issued, original ∈ state.issued ++ [token] :=
      fun original member => List.mem_append_left _ member
    have distinct : Distinct (state.issued ++ [token]) := by
      constructor
      · rw [List.map_append]
        exact List.Nodup.append kept.distinct.ids (List.nodup_singleton _)
          (List.disjoint_singleton.mpr newId)
      · rw [List.map_append]
        exact List.Nodup.append kept.distinct.secrets (List.nodup_singleton _)
          (List.disjoint_singleton.mpr newSecret)
    have genuine : Genuine (state.issued ++ [token]) token :=
      ⟨token, List.mem_append_right _ (List.mem_singleton_self token), rfl, rfl, rfl, rfl⟩
    refine ⟨distinct, ?_, ?_, ?_, ?_⟩
    · intro other
      have old := (kept.managers other).mono grown
      change WellKept _ (update state.managers index _ other)
      by_cases same : other = index
      · rw [same, update_self]
        exact ((kept.managers index).mono grown).enter distinct genuine
      · rw [update_of_ne same]
        exact old
    · intro saved here other member
      exact (kept.saved saved here other member).mono grown
    · intro event logged
      change _ ∈ (state.issued ++ [token]).map _
      rw [List.map_append]
      exact List.mem_append_left _ (kept.known event logged)
    · intro other member now logged
      rcases List.mem_append.mp member with old | new
      · exact kept.inTime other old now logged
      · rw [List.mem_singleton.mp new] at logged
        exact absurd (kept.known _ logged) newId

theorem validateAndConsume_cases (manager : TokenManager) (secret : String) (now : Int) :
    manager.validateAndConsume secret now = (none, manager) ∨
      ∃ place token, manager.findFirst secret = some (place, token) ∧
        token.isValid now = true ∧ manager.validateAndConsume secret now =
          (some (TokenManager.useOnce token), manager.modify place TokenManager.useOnce) := by
  unfold TokenManager.validateAndConsume
  cases found : manager.findFirst secret with
  | none => exact .inl rfl
  | some pair =>
    rcases pair with ⟨place, token⟩
    by_cases valid : token.isValid now = true
    · exact .inr ⟨place, token, rfl, valid, if_pos valid⟩
    · exact .inl (if_neg valid)

theorem revoke_cases (manager : TokenManager) (tokenId : String) :
    manager.revoke tokenId = (false, manager) ∨
      ∃ place token, manager.findSecond tokenId = some (place, token) ∧
        manager.revoke tokenId = (true, manager.modify place TokenManager.withdraw) := by
  unfold TokenManager.revoke
  cases found : manager.findSecond tokenId with
  | none => exact .inl rfl
  | some pair => exact .inr ⟨pair.1, pair.2, rfl, rfl⟩

theorem isValid_cases {now : Int} (valid : token.isValid now = true) :
    token.revoked = false ∧ (token.uses : Int) < token.maxUses ∧ now ≤ token.expiresAt := by
  unfold JoinToken.isValid at valid
  rcases Bool.and_eq_true_iff.mp valid with ⟨early, inTime⟩
  rcases Bool.and_eq_true_iff.mp early with ⟨standing, unused⟩
  rw [Bool.not_eq_true'] at standing unused inTime
  exact ⟨standing, Int.not_le.mp (of_decide_eq_false unused),
    Int.not_lt.mp (of_decide_eq_false inTime)⟩

theorem kept_consume (kept : Kept state) (index : Nat) (secret : String) (now : Int) :
    Kept (state.consume index secret now) := by
  unfold consume
  rcases validateAndConsume_cases (state.managers index) secret now with
    nothing | ⟨place, token, found, valid, consumed⟩
  · rw [nothing]
    exact kept_setManager kept index (kept.managers index)
  · rw [consumed]
    have held := ((kept.managers index).agrees.findFirst found).1
    have genuine := (kept.managers index).genuine token (Held.mem held)
    refine kept_log (kept_setManager kept index (wellKept_useOnce (kept.managers index) place))
      genuine rfl ?_
    intro time same
    cases same
    exact (isValid_cases valid).2.2

theorem kept_revoke (kept : Kept state) (index : Nat) (tokenId : String) :
    Kept (state.revoke index tokenId) := by
  unfold revoke
  rcases revoke_cases (state.managers index) tokenId with nothing | ⟨place, token, found, revoked⟩
  · rw [nothing]
    exact kept_setManager kept index (kept.managers index)
  · rw [revoked]
    rcases (kept.managers index).agrees.findSecond found with ⟨held, keyed⟩
    have genuine := (kept.managers index).genuine token (Held.mem held)
    refine kept_log (kept_setManager kept index (wellKept_withdraw (kept.managers index) place))
      genuine keyed.symm ?_
    intro time same
    cases same

theorem kept_step (ttls : TokenTtls) (kept : Kept state) (input : TokenInput) :
    Kept (state.step ttls input) := by
  cases input with
  | create index now ttl maxUses createdBy labels tokenId secret => exact kept_create kept index _
  | consume index secret now => exact kept_consume kept index secret now
  | revoke index tokenId => exact kept_revoke kept index tokenId
  | cleanup index now => exact kept_setManager kept index ((kept.managers index).cleanup now)
  | save index now =>
    refine ⟨kept.distinct, kept.managers, ?_, kept.known, kept.inTime⟩
    intro saved here token member
    cases here
    exact genuine_savedTokens (kept.managers index) member
  | load index now =>
    change Kept (state.load index now)
    unfold load
    cases here : state.saved with
    | none => exact kept
    | some saved =>
      exact kept_setManager kept index
        ((kept.managers index).load kept.distinct now saved (kept.saved saved here))
  | restart index => exact kept_setManager kept index wellKept_empty

theorem kept_initial : Kept {} := by
  refine ⟨⟨List.nodup_nil, List.nodup_nil⟩, fun _ => wellKept_empty, ?_, ?_, ?_⟩
  · intro saved here
    cases here
  · intro event logged
    exact (List.not_mem_nil logged).elim
  · intro token member
    exact (List.not_mem_nil member).elim

/-! ## Counting the uses -/

theorem consumptions_consumed (log : List TokenEvent) (tokenId : String) (now : Int) :
    consumptions (log ++ [.consumed tokenId now]) tokenId = consumptions log tokenId + 1 := by
  have counted : consumes tokenId (.consumed tokenId now) = true := decide_eq_true rfl
  unfold consumptions
  rw [List.countP_append, List.countP_cons_of_pos counted, List.countP_nil]

theorem consumptions_other (log : List TokenEvent) {event : TokenEvent} {tokenId : String}
    (other : consumes tokenId event = false) :
    consumptions (log ++ [event]) tokenId = consumptions log tokenId := by
  unfold consumptions
  rw [List.countP_append, List.countP_cons_of_neg, List.countP_nil, Nat.add_zero]
  rw [other]
  exact Bool.false_ne_true

theorem consumes_of_ne {tokenId : String} (other : event.tokenId ≠ tokenId) :
    consumes tokenId event = false := by
  cases event with
  | consumed about now => exact decide_eq_false other
  | revoked about => rfl

/-- The token has counted every use of it, and knows of its revocation. -/
structure Counts (log : List TokenEvent) (token : JoinToken) : Prop where
  uses : consumptions log token.tokenId ≤ token.uses
  revoked : TokenEvent.revoked token.tokenId ∈ log -> token.revoked = true

theorem Counts.of_ne (counts : Counts log token)
    (other : event.tokenId ≠ token.tokenId) : Counts (log ++ [event]) token := by
  constructor
  · rw [consumptions_other log (consumes_of_ne other)]
    exact counts.uses
  · intro logged
    rcases List.mem_append.mp logged with old | new
    · exact counts.revoked old
    · exact absurd (congrArg TokenEvent.tokenId (List.mem_singleton.mp new)).symm other

structure Counted (state : JoinTokens) : Prop where
  counts : ∀ index place token, Held (state.managers index) place token ->
    Counts state.log token
  sole : ∀ first second firstPlace secondPlace one two,
    Held (state.managers first) firstPlace one -> Held (state.managers second) secondPlace two ->
    one.tokenId = two.tokenId -> first = second
  respected : Respected state

theorem counted_setManager (counted : Counted state) (index : Nat) {manager : TokenManager}
    (tokens : ∀ place token, Held manager place token ->
      Held (state.managers index) place token ∨ (Counts state.log token ∧
        ∀ other otherPlace held, other ≠ index ->
          Held (state.managers other) otherPlace held -> held.tokenId ≠ token.tokenId)) :
    Counted (state.setManager index manager) := by
  have elsewhere : ∀ other ≠ index,
      (state.setManager index manager).managers other = state.managers other :=
    fun other different => update_of_ne different _ _
  have here : (state.setManager index manager).managers index = manager := update_self ..
  -- The token of the changed manager against one of another manager.
  have apart : ∀ other otherPlace place held token, other ≠ index ->
      Held (state.managers other) otherPlace held -> Held manager place token ->
      held.tokenId ≠ token.tokenId := by
    intro other otherPlace place held token different otherHeld newHeld same
    rcases tokens place token newHeld with old | ⟨_, free⟩
    · exact different (counted.sole other index otherPlace place held token otherHeld old same)
    · exact free other otherPlace held different otherHeld same
  refine ⟨?_, ?_, ⟨counted.respected.bounded, counted.respected.unrevoked⟩⟩
  · intro other place token held
    by_cases same : other = index
    · rw [same, here] at held
      rcases tokens place token held with old | ⟨counts, _⟩
      · exact counted.counts index place token old
      · exact counts
    · rw [elsewhere other same] at held
      exact counted.counts other place token held
  · intro first second firstPlace secondPlace one two firstHeld secondHeld sameId
    by_cases firstHere : first = index
    · by_cases secondHere : second = index
      · exact firstHere.trans secondHere.symm
      · rw [firstHere, here] at firstHeld
        rw [elsewhere second secondHere] at secondHeld
        exact absurd sameId.symm (apart second _ _ _ _ secondHere secondHeld firstHeld)
    · rw [elsewhere first firstHere] at firstHeld
      by_cases secondHere : second = index
      · rw [secondHere, here] at secondHeld
        exact absurd sameId (apart first _ _ _ _ firstHere firstHeld secondHeld)
      · rw [elsewhere second secondHere] at secondHeld
        exact counted.sole first second _ _ _ _ firstHeld secondHeld sameId

theorem counted_change (kept : Kept state) (counted : Counted state) (index : Nat)
    (held : Held (state.managers index) place token)
    {change : JoinToken -> JoinToken} (event : TokenEvent) (about : event.tokenId = token.tokenId)
    (secrets : ∀ token, (change token).secret = token.secret)
    (ids : ∀ token, (change token).tokenId = token.tokenId)
    (counts : Counts (state.log ++ [event]) (change token))
    (respected : Respected { state with log := state.log ++ [event] }) :
    Counted { state.setManager index ((state.managers index).modify place change) with
      log := state.log ++ [event] } := by
  have agrees := (kept.managers index).agrees
  -- Every token of the new state was held before, at the same place, and keeps its id.
  have before : ∀ other otherPlace new,
      Held ((state.setManager index ((state.managers index).modify place change)).managers other)
        otherPlace new ->
      ∃ old, Held (state.managers other) otherPlace old ∧ new.tokenId = old.tokenId ∧
        (new = old ∧ (other ≠ index ∨ place ≠ otherPlace) ∨
          other = index ∧ place = otherPlace ∧ new = change old) := by
    intro other otherPlace new newHeld
    change Held (update state.managers index _ other) _ _ at newHeld
    by_cases same : other = index
    · rw [same, update_self] at newHeld
      rcases newHeld.of_modify secrets ids agrees with ⟨old, oldHeld, now⟩
      by_cases spot : place = otherPlace
      · rw [if_pos spot] at now
        exact ⟨old, same ▸ oldHeld, now ▸ ids old, .inr ⟨same, spot, now⟩⟩
      · rw [if_neg spot] at now
        exact ⟨old, same ▸ oldHeld, now ▸ rfl, .inl ⟨now, .inr spot⟩⟩
    · rw [update_of_ne same] at newHeld
      exact ⟨new, newHeld, rfl, .inl ⟨rfl, .inl same⟩⟩
  refine ⟨?_, ?_, ⟨respected.bounded, respected.unrevoked⟩⟩
  · intro other otherPlace new newHeld
    rcases before other otherPlace new newHeld with ⟨old, oldHeld, _, change_⟩
    rcases change_ with ⟨same, elsewhere⟩ | ⟨sameIndex, spot, now⟩
    · rw [same]
      refine (counted.counts other otherPlace old oldHeld).of_ne ?_
      intro sameId
      rw [about] at sameId
      have sameIndex := counted.sole _ _ _ _ _ _ held oldHeld sameId
      rw [← sameIndex] at oldHeld elsewhere
      refine elsewhere.elim (fun different => different rfl) (fun different => different ?_)
      have found := oldHeld.bySecond
      rw [← sameId, held.bySecond] at found
      exact Option.some.inj found
    · rw [sameIndex, ← spot] at oldHeld
      cases held.there.symm.trans oldHeld.there
      exact now ▸ counts
  · intro first second firstPlace secondPlace one two firstHeld secondHeld sameId
    rcases before first firstPlace one firstHeld with ⟨oldOne, oneHeld, oneId, _⟩
    rcases before second secondPlace two secondHeld with ⟨oldTwo, twoHeld, twoId, _⟩
    refine counted.sole _ _ _ _ _ _ oneHeld twoHeld ?_
    exact oneId.symm.trans (sameId.trans twoId)

/-! ## One step of the managers -/

theorem consumptions_unknown (kept : Kept state) {tokenId : String}
    (fresh : tokenId ∉ state.issued.map JoinToken.tokenId) : consumptions state.log tokenId = 0 := by
  refine List.countP_eq_zero.mpr ?_
  intro event logged
  rw [consumes_of_ne]
  · exact Bool.false_ne_true
  · intro same
    exact fresh (same ▸ kept.known event logged)

theorem counted_create (kept : Kept state) (counted : Counted state) (index : Nat)
    (limit : 0 ≤ token.maxUses) : Counted (state.create index token) := by
  unfold create
  split
  · exact counted
  case isFalse fresh =>
    have newId := (not_or.mp fresh).1
    have unused := consumptions_unknown kept newId
    have counts : Counts state.log token := by
      refine ⟨unused.trans_le (Nat.zero_le _), ?_⟩
      intro logged
      exact absurd (kept.known _ logged) newId
    have entered : Counted (state.setManager index ((state.managers index).enter token)) := by
      refine counted_setManager counted index ?_
      intro place held holds
      rcases holds.of_insert with same | old
      · refine .inr ⟨same ▸ counts, ?_⟩
        intro other otherPlace there _ otherHeld sameId
        rcases (kept.managers other).genuine there (Held.mem otherHeld) with
          ⟨original, member, id, _⟩
        rw [same] at sameId
        exact newId (sameId ▸ id ▸ List.mem_map_of_mem member)
      · exact .inl old
    refine ⟨entered.counts, entered.sole, ?_, counted.respected.unrevoked⟩
    intro other member
    rcases List.mem_append.mp member with old | new
    · exact counted.respected.bounded other old
    · rw [List.mem_singleton.mp new]
      change ((consumptions state.log token.tokenId : Nat) : Int) ≤ token.maxUses
      rw [unused]
      exact limit

theorem counted_consume (kept : Kept state) (counted : Counted state) (index : Nat)
    (secret : String) (now : Int) : Counted (state.consume index secret now) := by
  unfold consume
  rcases validateAndConsume_cases (state.managers index) secret now with
    nothing | ⟨place, token, found, valid, consumed⟩
  · rw [nothing]
    exact counted_setManager counted index fun _ _ held => .inl held
  · rw [consumed]
    have held := ((kept.managers index).agrees.findFirst found).1
    have counts := counted.counts index place token held
    rcases isValid_cases valid with ⟨standing, unused, _⟩
    have unrevoked : TokenEvent.revoked token.tokenId ∉ state.log := by
      intro logged
      rw [counts.revoked logged] at standing
      cases standing
    refine counted_change kept counted index held (.consumed token.tokenId now) rfl
      (fun _ => rfl) (fun _ => rfl) ⟨?_, ?_⟩ ⟨?_, ?_⟩
    · change consumptions (state.log ++ [.consumed token.tokenId now]) token.tokenId ≤ token.uses + 1
      rw [consumptions_consumed]
      exact Nat.succ_le_succ counts.uses
    · intro logged
      rcases List.mem_append.mp logged with old | new
      · exact absurd old unrevoked
      · cases List.mem_singleton.mp new
    · intro other member
      change ((consumptions (state.log ++ [_]) other.tokenId : Nat) : Int) ≤ other.maxUses
      by_cases same : other.tokenId = token.tokenId
      · rcases (kept.managers index).genuine token (Held.mem held) with
          ⟨original, originalMember, id, _, sameLimit, _⟩
        have one := List.inj_on_of_nodup_map kept.distinct.ids member originalMember
          (same.trans id.symm)
        rw [same, consumptions_consumed, one, sameLimit]
        have uses := counts.uses
        omega
      · rw [consumptions_other _ (consumes_of_ne fun about => same about.symm)]
        exact counted.respected.bounded other member
    · exact counted.respected.unrevoked.append (eachAfter_singleton unrevoked)

theorem counted_revoke (kept : Kept state) (counted : Counted state) (index : Nat)
    (tokenId : String) : Counted (state.revoke index tokenId) := by
  unfold revoke
  rcases revoke_cases (state.managers index) tokenId with nothing | ⟨place, token, found, revoked⟩
  · rw [nothing]
    exact counted_setManager counted index fun _ _ held => .inl held
  · rw [revoked]
    rcases (kept.managers index).agrees.findSecond found with ⟨held, keyed⟩
    have uncounted := fun other : String =>
      @consumptions_other state.log (.revoked tokenId) other rfl
    refine counted_change kept counted index held (.revoked tokenId) keyed.symm
      (fun _ => rfl) (fun _ => rfl) ⟨?_, fun _ => rfl⟩ ⟨?_, ?_⟩
    · rw [uncounted]
      exact (counted.counts index place token held).uses
    · intro other member
      change ((consumptions (state.log ++ [_]) other.tokenId : Nat) : Int) ≤ other.maxUses
      rw [uncounted]
      exact counted.respected.bounded other member
    · exact counted.respected.unrevoked.append (eachAfter_singleton trivial)

theorem counted_load (counted : Counted state) (index : Nat) (now : Int)
    (current : LoadsCurrent state (.load index now)) : Counted (state.load index now) := by
  unfold load
  cases here : state.saved with
  | none => exact counted
  | some saved =>
    refine counted_setManager counted index ?_
    intro place token held
    rcases held_of_load now saved held with old | ⟨member, valid⟩
    · exact .inl old
    · rcases current saved here token member valid with ⟨uses, unrevoked, alone⟩
      refine .inr ⟨⟨uses, fun logged => absurd logged unrevoked⟩, ?_⟩
      intro other otherPlace there different otherHeld sameId
      have found := otherHeld.bySecond
      rw [sameId, alone other different] at found
      cases found

theorem counted_step (ttls : TokenTtls) (kept : Kept state) (counted : Counted state)
    (input : TokenInput) (current : LoadsCurrent state input) : Counted (state.step ttls input) := by
  cases input with
  | create index now ttl maxUses createdBy labels tokenId secret =>
    refine counted_create kept counted index ?_
    exact Int.le_trans (by decide) (Int.le_max_left 1 maxUses)
  | consume index secret now => exact counted_consume kept counted index secret now
  | revoke index tokenId => exact counted_revoke kept counted index tokenId
  | cleanup index now =>
    exact counted_setManager counted index fun _ _ held => .inl (held_of_foldl_remove _ held)
  | save index now =>
    exact ⟨counted.counts, counted.sole, counted.respected.bounded, counted.respected.unrevoked⟩
  | load index now => exact counted_load counted index now current
  | restart index =>
    refine counted_setManager counted index ?_
    intro place token held
    cases held.byFirst

theorem counted_initial : Counted {} := by
  refine ⟨?_, ?_, ?_, each_nil⟩
  · intro index place token held
    cases held.byFirst
  · intro first second firstPlace secondPlace one two held
    cases held.byFirst
  · intro token member
    exact (List.not_mem_nil member).elim

/-- In every run the indexes agree and no expired token is used; in every run
which loads current records only, no token is overused or used after its
revocation. -/
theorem join_tokens_run (ttls : TokenTtls) (inputs : List TokenInput) :
    (machine ttls).EveryState Sound inputs ∧
      ((machine ttls).EveryStep LoadsCurrent inputs -> (machine ttls).EveryState Respected inputs) := by
  constructor
  · intro before rest split
    have kept : Kept ((machine ttls).after before) :=
      (machine ttls).invariant_after Kept kept_initial (fun _ input kept => kept_step ttls kept input)
        before
    exact ⟨kept.inTime, fun index => (kept.managers index).agrees⟩
  · intro current before rest split
    have both := (machine ttls).guarded_everyState (fun state => Kept state ∧ Counted state)
      LoadsCurrent ⟨kept_initial, counted_initial⟩
      (fun _ input both guard =>
        ⟨kept_step ttls both.1 input, counted_step ttls both.1 both.2 input guard⟩)
      inputs current
    exact (both before rest split).2.respected

def handedOn : List TokenInput :=
  [.create 0 0 none 1 "admin" [] "id" "secret", .save 0 1, .restart 0, .load 1 2,
    .consume 1 "secret" 3]

theorem join_tokens_handedOn : (machine {}).EveryState Respected handedOn := by
  refine (join_tokens_run {} handedOn).2 ?_
  rw [Machine.everyStep_iff_stepsFrom]
  refine ⟨trivial, trivial, trivial, ?_, trivial, trivial⟩
  intro saved here token member _
  cases here
  cases List.mem_singleton.mp member
  refine ⟨by decide, by decide, ?_⟩
  intro other _
  cases other with
  | zero => rfl
  | succ later => rfl

def reusedToken : List TokenInput :=
  [.create 0 0 none 1 "admin" [] "id" "secret", .save 0 1, .consume 0 "secret" 2, .restart 0,
    .load 0 3, .consume 0 "secret" 4]

theorem join_token_reused : Not (∀ (ttls : TokenTtls) (inputs : List TokenInput),
      (machine ttls).EveryState Sound inputs ∧ (machine ttls).EveryState Respected inputs) := by
  intro claim
  have respected := (claim {} reusedToken).2 reusedToken [] (List.append_nil _).symm
  have bounded := respected.bounded
    (TokenManager.newToken {} 0 none 1 "admin" [] "id" "secret") (by decide)
  exact absurd bounded (by decide)

end JoinTokens

end Network
end BreadMind
