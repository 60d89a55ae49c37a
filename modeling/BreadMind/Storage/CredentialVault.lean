import BreadMind.Base.Values
import BreadMind.Execution.Dict
import BreadMind.Execution.Machine
import Mathlib.Data.List.Infix
import Mathlib.Data.List.Sort

namespace BreadMind
namespace Storage

open Execution

/-!
# Moving credentials into the vault

Messenger tokens and OAuth credentials that stand in the settings as plaintext are
encrypted, stored under the key of the vault and deleted, one after the other.  Each
call to the database may return, raise or be the last before a crash; what it was to
do is done or not in the latter cases.  A call that raises breaks off the category in
which it was made, and the migration goes on behind it.

The settings are a table of JSON values, of which `null` is read like a missing row.
In which order the database lists keys is left open.
-/

abbrev SettingsTable := Dict String Json

def SettingsTable.get (settings : SettingsTable) (key : String) : Json :=
  (settings.lookup key).getD .null

/-- Symmetric encryption under one key; `encrypt_value` may raise. -/
structure Cipher where
  encrypt : Nat -> String -> Option String
  decrypt : String -> Option String
  decrypts : ∀ nonce text encrypted, encrypt nonce text = some encrypted ->
    decrypt encrypted = some text

def vaultKey (credentialId : String) : String := "vault:" ++ credentialId

def doneKey : String := "vault_migration_done"

/-- `data is not None and "encrypted" in data`. -/
def hasEncrypted : Json -> Except PyError Bool
  | .null => .ok false
  | .obj fields => .ok (fields.lookup "encrypted").isSome
  | .arr items => .ok (items.any fun
      | .str text => decide (text = "encrypted")
      | _ => false)
  | .str text => .ok (decide ("encrypted".toList <:+: text.toList))
  | .bool _ => .error (.typeError "argument of type 'bool' is not iterable")
  | .int _ => .error (.typeError "argument of type 'int' is not iterable")
  | .float _ => .error (.typeError "argument of type 'float' is not iterable")

/-- What fails to be decrypted is reported as missing. -/
def retrieve (cipher : Cipher) (settings : SettingsTable) (credentialId : String) :
    Except PyError (Option String) :=
  let data := settings.get (vaultKey credentialId)
  if data.truthy then
    match hasEncrypted data with
    | .error failure => .error failure
    | .ok false => .ok none
    | .ok true =>
      match data with
      | .obj fields =>
        match fields.lookup "encrypted" with
        | some (.str encrypted) => .ok (cipher.decrypt encrypted)
        | _ => .ok none
      | _ => .ok none
  else .ok none

inductive Category where
  | messenger
  | oauth

def Category.listPrefix : Category -> String
  | .messenger => "messenger_token:"
  | .oauth => "oauth:"

/-- The plaintext of a setting; nothing of a value in another format. -/
def Category.plaintext : Category -> Json -> Json
  | .messenger, .obj fields => (fields.lookup "value").getD .null
  | .messenger, _ => .null
  | .oauth, .str text => .str text
  | .oauth, _ => .null

def removePrefix (start text : String) : String :=
  if start.toList <+: text.toList then String.ofList (text.toList.drop start.toList.length) else text

def Category.credentialId : Category -> String -> String
  | .messenger, key => "messenger:" ++ removePrefix "messenger_token:" key
  | .oauth, key => key

def Category.Owns (category : Category) (key : String) : Prop :=
  category.listPrefix.toList <+: key.toList

/-- `key LIKE start || '%'`, where an underscore stands for any letter. -/
def likeStart : List Char -> List Char -> Bool
  | [], _ => true
  | _ :: _, [] => false
  | pattern :: start, letter :: key =>
    (decide (pattern = '_') || decide (pattern = letter)) && likeStart start key

def Category.Lists (category : Category) (key : String) : Prop :=
  likeStart category.listPrefix.toList key.toList = true

instance (category : Category) (key : String) : Decidable (category.Lists key) :=
  inferInstanceAs (Decidable (_ = true))

def listSettingsByPrefix (settings : SettingsTable) (category : Category) (rank : String -> Nat) :
    List String :=
  (settings.keys.filter fun key => decide (category.Lists key)).insertionSort
    fun key other => rank key ≤ rank other

/-- No setting of the category has a plaintext. -/
def HoldsNone (category : Category) (settings : SettingsTable) : Prop :=
  ∀ key, category.Owns key -> (category.plaintext (settings.get key)).truthy = false

/-! ## The migration call by call -/

/-- The call to the database that is due, and the keys of the category behind it. -/
inductive Phase where
  | idle
  | listing (category : Category)
  | reading (category : Category) (key : String) (rest : List String)
  | looking (category : Category) (key : String) (rest : List String) (plaintext : Json)
  | storing (category : Category) (key : String) (rest : List String) (encrypted : String)
  | deleting (category : Category) (key : String) (rest : List String)
  | flagging

structure Draw where
  rank : String -> Nat
  nonce : Nat
  now : Rat

structure MigrationState where
  settings : SettingsTable
  phase : Phase := .idle

inductive MigrationInput where
  | begin
  | returns (draw : Draw)
  | raises (draw : Draw) (done : Bool)
  | crashes (draw : Draw) (done : Bool)

def Category.next : Category -> Phase
  | .messenger => .listing .oauth
  | .oauth => .flagging

def visit (category : Category) : List String -> Phase
  | [] => category.next
  | key :: rest => .reading category key rest

/-- What comes of looking for the credential in the vault and encrypting it. -/
inductive Lookup where
  | raised
  | present
  | absent (encrypted : String)

/-- A plaintext that is no text cannot be encoded. -/
def lookUp (cipher : Cipher) (nonce : Nat) (settings : SettingsTable) (credentialId : String)
    (plaintext : Json) : Lookup :=
  match hasEncrypted (settings.get (vaultKey credentialId)) with
  | .error _ => .raised
  | .ok true => .present
  | .ok false =>
    match plaintext with
    | .str text =>
      match cipher.encrypt nonce text with
      | some encrypted => .absent encrypted
      | none => .raised
    | _ => .raised

def Phase.effect (draw : Draw) (settings : SettingsTable) : Phase -> SettingsTable
  | .storing category key _ encrypted =>
    Dict.set (vaultKey (category.credentialId key))
      (.obj [("encrypted", .str encrypted), ("stored_at", .float draw.now)]) settings
  | .deleting _ key _ => Dict.pop key settings
  | .flagging => Dict.set doneKey (.obj [("at", .float draw.now)]) settings
  | _ => settings

def Phase.advance (cipher : Cipher) (draw : Draw) (settings : SettingsTable) : Phase -> Phase
  | .idle => .idle
  | .listing category => visit category (listSettingsByPrefix settings category draw.rank)
  | .reading category key rest =>
    let plaintext := category.plaintext (settings.get key)
    if plaintext.truthy then .looking category key rest plaintext else visit category rest
  | .looking category key rest plaintext =>
    match lookUp cipher draw.nonce settings (category.credentialId key) plaintext with
    | .raised => category.next
    | .present => visit category rest
    | .absent encrypted => .storing category key rest encrypted
  | .storing category key rest _ => .deleting category key rest
  | .deleting category _ rest => visit category rest
  | .flagging => .idle

def Phase.category? : Phase -> Option Category
  | .idle => none
  | .listing category => some category
  | .reading category _ _ => some category
  | .looking category _ _ _ => some category
  | .storing category _ _ _ => some category
  | .deleting category _ _ => some category
  | .flagging => none

def Phase.breakOff (phase : Phase) : Phase :=
  match phase.category? with
  | some category => category.next
  | none => .idle

def MigrationState.step (cipher : Cipher) (state : MigrationState) : MigrationInput -> MigrationState
  | .begin =>
    match state.phase with
    | .idle =>
      if (state.settings.get doneKey).truthy then state
      else { state with phase := .listing .messenger }
    | _ => state
  | .returns draw =>
    { settings := state.phase.effect draw state.settings
      phase := state.phase.advance cipher draw state.settings }
  | .raises draw done =>
    { settings := if done then state.phase.effect draw state.settings else state.settings
      phase := state.phase.breakOff }
  | .crashes draw done =>
    { settings := if done then state.phase.effect draw state.settings else state.settings
      phase := .idle }

def migrationMachine (cipher : Cipher) (initial : SettingsTable) :
    Machine MigrationState MigrationInput where
  initial := { settings := initial }
  step := MigrationState.step cipher

/-- The credential is a plaintext of the settings. -/
structure IsPlaintext (settings : SettingsTable) (category : Category) (key text : String) : Prop where
  owned : category.Owns key
  plaintext : category.plaintext (settings.get key) = .str text
  some_ : text ≠ ""

def AtHand (cipher : Cipher) (settings : SettingsTable) (credentialId text : String) : Prop :=
  retrieve cipher settings credentialId = .ok (some text)

/-- No plaintext is gone before it can be retrieved, and nothing leaves the vault. -/
structure Keeps (cipher : Cipher) (initial : SettingsTable) (settings : SettingsTable) : Prop where
  plaintexts : ∀ category key text, IsPlaintext initial category key text ->
    settings.get key = initial.get key ∨ AtHand cipher settings (category.credentialId key) text
  vaulted : ∀ credentialId text, AtHand cipher initial credentialId text ->
    AtHand cipher settings credentialId text

/-- Once the flag is set, there is no plaintext and all of them can be retrieved. -/
structure Migrated (cipher : Cipher) (initial : SettingsTable) (state : MigrationState) : Prop where
  keeps : Keeps cipher initial state.settings
  complete : (state.settings.get doneKey).truthy = true -> ∀ category,
    HoldsNone category state.settings
  retrievable : (state.settings.get doneKey).truthy = true -> ∀ category key text,
    IsPlaintext initial category key text ->
      AtHand cipher state.settings (category.credentialId key) text

/-- A category is broken off only when no plaintext of it is left, and no plaintext is
found to be in the vault already. -/
def Unhindered (cipher : Cipher) (state : MigrationState) : MigrationInput -> Prop
  | .returns draw =>
    match state.phase with
    | .looking category key _ plaintext =>
      match lookUp cipher draw.nonce state.settings (category.credentialId key) plaintext with
      | .raised => HoldsNone category state.settings
      | .present => Not (category.Owns key)
      | .absent _ => True
    | _ => True
  | .raises draw done =>
    ∀ category, state.phase.category? = some category ->
      HoldsNone category
        (if done then state.phase.effect draw state.settings else state.settings)
  | _ => True

/-! ## Keys apart -/

variable {cipher : Cipher} {settings : SettingsTable}

theorem get_set (settings : SettingsTable) (key other : String) (value : Json) :
    SettingsTable.get (Dict.set key value settings) other =
      if other = key then value else settings.get other := by
  unfold SettingsTable.get
  rw [Dict.lookup_set]
  split <;> rfl

theorem get_pop_self (settings : SettingsTable) (key : String) :
    SettingsTable.get (Dict.pop key settings) key = .null := by
  unfold SettingsTable.get
  rw [Dict.lookup_pop_self]
  rfl

variable {key : String}

theorem get_pop_of_ne (settings : SettingsTable) {other : String} (apart : other ≠ key) :
    SettingsTable.get (Dict.pop key settings) other = settings.get other := by
  unfold SettingsTable.get
  rw [Dict.lookup_pop_of_ne settings apart]

theorem likeStart_of_prefix {start key : List Char} (begins : start <+: key) :
    likeStart start key = true := by
  induction start generalizing key with
  | nil => rfl
  | cons letter start ih =>
    rcases begins with ⟨rest, rfl⟩
    rw [List.cons_append]
    unfold likeStart
    rw [ih (List.prefix_append start rest), decide_eq_true rfl, Bool.or_true, Bool.and_true]

variable {category : Category}

theorem Category.Owns.lists (owned : category.Owns key) : category.Lists key :=
  likeStart_of_prefix owned

def Category.letter : Category -> Char
  | .messenger => 'm'
  | .oauth => 'o'

theorem head_of_lists (lists : category.Lists key) : key.toList.head? = some category.letter := by
  unfold Category.Lists at lists
  cases letters : key.toList with
  | nil =>
    rw [letters] at lists
    cases category <;> cases lists
  | cons letter rest =>
    rw [letters] at lists
    have start : ∃ others, category.listPrefix.toList = category.letter :: others := by
      cases category
      · exact ⟨"essenger_token:".toList, rfl⟩
      · exact ⟨"auth:".toList, rfl⟩
    rcases start with ⟨others, start⟩
    rw [start] at lists
    unfold likeStart at lists
    rw [Bool.and_eq_true, Bool.or_eq_true, decide_eq_true_eq, decide_eq_true_eq] at lists
    rcases lists.1 with wild | same
    · cases category <;> cases wild
    · exact congrArg some same.symm

theorem vaultKey_ne_of_lists (lists : category.Lists key)
    (credentialId : String) : vaultKey credentialId ≠ key := by
  rintro rfl
  have first := head_of_lists lists
  unfold vaultKey at first
  rw [String.toList_append] at first
  have start : "vault:".toList = 'v' :: "ault:".toList := rfl
  rw [start, List.cons_append, List.head?_cons] at first
  cases category <;> cases first

theorem doneKey_ne_of_lists (lists : category.Lists key) : doneKey ≠ key := by
  rintro rfl
  have first := head_of_lists lists
  have start : doneKey.toList = 'v' :: "ault_migration_done".toList := rfl
  rw [start, List.head?_cons] at first
  cases category <;> cases first

theorem doneKey_ne_vaultKey (credentialId : String) : doneKey ≠ vaultKey credentialId := by
  intro same
  have letters := congrArg (fun text => text.toList[5]?) same
  unfold vaultKey at letters
  rw [String.toList_append, List.getElem?_append_left (by decide)] at letters
  exact absurd letters (by decide)

variable {credentialId : String}

theorem vaultKey_injective {other : String}
    (same : vaultKey credentialId = vaultKey other) : credentialId = other := by
  have letters := congrArg String.toList same
  unfold vaultKey at letters
  rw [String.toList_append, String.toList_append] at letters
  exact String.toList_inj.mp (List.append_cancel_left letters)

variable {other : Category}

theorem category_of_lists (lists : category.Lists key)
    (otherLists : other.Lists key) : category = other := by
  have letters := (head_of_lists lists).symm.trans (head_of_lists otherLists)
  cases category <;> cases other
  · rfl
  · cases letters
  · cases letters
  · rfl

theorem mem_listSettings {rank : String -> Nat} :
    key ∈ listSettingsByPrefix settings category rank <-> key ∈ settings.keys ∧ category.Lists key := by
  unfold listSettingsByPrefix
  rw [List.mem_insertionSort, List.mem_filter, decide_eq_true_eq]

theorem mem_keys_of_truthy
    (truthy : (category.plaintext (settings.get key)).truthy = true) : key ∈ settings.keys := by
  cases found : settings.lookup key with
  | some value => exact List.mem_map.mpr ⟨(key, value), Dict.mem_of_lookup found, rfl⟩
  | none =>
    have missing : settings.get key = .null := by
      unfold SettingsTable.get
      rw [found]
      rfl
    rw [missing] at truthy
    cases category <;> cases truthy

variable {text : String}

theorem atHand_congr {after : SettingsTable}
    (same : after.get (vaultKey credentialId) = settings.get (vaultKey credentialId)) :
    AtHand cipher after credentialId text <-> AtHand cipher settings credentialId text := by
  unfold AtHand retrieve
  rw [same]

theorem hasEncrypted_of_atHand (atHand : AtHand cipher settings credentialId text) :
    hasEncrypted (settings.get (vaultKey credentialId)) = .ok true := by
  unfold AtHand retrieve at atHand
  dsimp only at atHand
  split at atHand
  · split at atHand
    · cases atHand
    · cases atHand
    case h_3 here => exact here
  · cases atHand

theorem atHand_stored {encrypted : String} {time : Json}
    (decrypted : cipher.decrypt encrypted = some text)
    (here : settings.get (vaultKey credentialId) =
      .obj [("encrypted", .str encrypted), ("stored_at", time)]) :
    AtHand cipher settings credentialId text := by
  unfold AtHand retrieve
  rw [here]
  exact congrArg Except.ok decrypted

theorem lookUp_absent {nonce : Nat} {encrypted : String} {plaintext : Json}
    (absent : lookUp cipher nonce settings credentialId plaintext = .absent encrypted) :
    hasEncrypted (settings.get (vaultKey credentialId)) = .ok false ∧
      ∃ text, plaintext = .str text ∧ cipher.decrypt encrypted = some text := by
  unfold lookUp at absent
  split at absent
  · cases absent
  · cases absent
  case h_3 free =>
    refine ⟨free, ?_⟩
    split at absent
    case h_1 text =>
      split at absent
      case h_1 given encrypts =>
        cases absent
        exact ⟨text, rfl, cipher.decrypts _ _ _ encrypts⟩
      · cases absent
    · cases absent

/-! ## What holds in every state -/

def Phase.keys : Phase -> List String
  | .reading _ key rest => key :: rest
  | .looking _ key rest _ => key :: rest
  | .storing _ key rest _ => key :: rest
  | .deleting _ key rest => key :: rest
  | _ => []

/-- What the call that is due relies on: nothing is stored over a credential, and
nothing is deleted that cannot be retrieved. -/
def Due (cipher : Cipher) (settings : SettingsTable) : Phase -> Prop
  | .looking category key _ plaintext => category.plaintext (settings.get key) = plaintext
  | .storing category key _ encrypted =>
    hasEncrypted (settings.get (vaultKey (category.credentialId key))) = .ok false ∧
      ∃ text, category.plaintext (settings.get key) = .str text ∧
        cipher.decrypt encrypted = some text
  | .deleting category key _ =>
    ∃ text, category.plaintext (settings.get key) = .str text ∧
      AtHand cipher settings (category.credentialId key) text
  | _ => True

structure Poised (cipher : Cipher) (settings : SettingsTable) (phase : Phase) : Prop where
  listed : ∀ category, phase.category? = some category ->
    ∀ key ∈ phase.keys, category.Lists key
  due : Due cipher settings phase

structure Sound (cipher : Cipher) (initial : SettingsTable) (state : MigrationState) : Prop where
  keeps : Keeps cipher initial state.settings
  poised : Poised cipher state.settings state.phase

variable {initial : SettingsTable} {state : MigrationState}

theorem sound_initial : Sound cipher initial { settings := initial } where
  keeps := ⟨fun _ _ _ _ => .inl rfl, fun _ _ atHand => atHand⟩
  poised := ⟨fun _ none_ => (nomatch none_), trivial⟩

theorem get_effect (draw : Draw) (phase : Phase) (lists : category.Lists key) :
    (phase.effect draw settings).get key = settings.get key ∨
      ((∃ other rest, phase = .deleting other key rest) ∧
        (phase.effect draw settings).get key = .null) := by
  cases phase with
  | storing other otherKey rest encrypted =>
    exact .inl ((get_set _ _ _ _).trans (if_neg (vaultKey_ne_of_lists lists _).symm))
  | deleting other otherKey rest =>
    by_cases same : key = otherKey
    · subst same
      exact .inr ⟨⟨other, rest, rfl⟩, get_pop_self settings key⟩
    · exact .inl (get_pop_of_ne settings same)
  | flagging => exact .inl ((get_set _ _ _ _).trans (if_neg (doneKey_ne_of_lists lists).symm))
  | _ => exact .inl rfl

theorem atHand_effect (sound : Sound cipher initial state) (draw : Draw)
    (atHand : AtHand cipher state.settings credentialId text) :
    AtHand cipher (state.phase.effect draw state.settings) credentialId text := by
  rcases state with ⟨settings, phase⟩
  have due := sound.poised.due
  cases phase with
  | storing category key rest encrypted =>
    have apart : credentialId ≠ category.credentialId key := by
      rintro rfl
      cases (hasEncrypted_of_atHand atHand).symm.trans due.1
    refine (atHand_congr ((get_set _ _ _ _).trans (if_neg fun same => ?_))).mpr atHand
    exact apart (vaultKey_injective same)
  | deleting category key rest =>
    have lists := sound.poised.listed category rfl key List.mem_cons_self
    exact (atHand_congr (get_pop_of_ne _ (vaultKey_ne_of_lists lists _))).mpr atHand
  | flagging =>
    refine (atHand_congr ((get_set _ _ _ _).trans (if_neg ?_))).mpr atHand
    exact (doneKey_ne_vaultKey credentialId).symm
  | _ => exact atHand

theorem keeps_effect (sound : Sound cipher initial state) (draw : Draw) :
    Keeps cipher initial (state.phase.effect draw state.settings) where
  vaulted := fun credentialId text before =>
    atHand_effect sound draw (sound.keeps.vaulted credentialId text before)
  plaintexts := by
    intro category key text plain
    rcases sound.keeps.plaintexts category key text plain with same | atHand
    · rcases get_effect draw state.phase plain.owned.lists with unchanged | ⟨gone, _⟩
      · exact .inl (unchanged.trans same)
      · rcases gone with ⟨other, rest, deletes⟩
        have listed := sound.poised.listed
        have due := sound.poised.due
        rw [deletes] at listed due
        have lists := listed other rfl key List.mem_cons_self
        cases category_of_lists plain.owned.lists lists
        rcases due with ⟨stored, read, atHand⟩
        have value := plain.plaintext
        rw [← same] at value
        cases read.symm.trans value
        exact .inr (atHand_effect sound draw atHand)
    · exact .inr (atHand_effect sound draw atHand)

theorem poised_visit {keys : List String} (lists : ∀ key ∈ keys, category.Lists key) :
    Poised cipher settings (visit category keys) := by
  cases keys with
  | nil =>
    cases category with
    | messenger => exact ⟨fun _ _ _ member => (nomatch member), trivial⟩
    | oauth => exact ⟨fun _ _ _ member => (nomatch member), trivial⟩
  | cons first rest =>
    refine ⟨?_, trivial⟩
    rintro other ⟨⟩ key member
    exact lists key member

theorem next_eq_visit (category : Category) : category.next = visit category [] := rfl

theorem poised_next (category : Category) : Poised cipher settings category.next := by
  have none_ : ∀ key ∈ ([] : List String), category.Lists key := fun _ member => by
    cases member
  exact poised_visit none_

theorem poised_idle : Poised cipher settings .idle :=
  ⟨fun _ none_ => (nomatch none_), trivial⟩

theorem poised_breakOff (phase : Phase) : Poised cipher settings phase.breakOff := by
  unfold Phase.breakOff
  cases phase.category? with
  | none => exact poised_idle
  | some category => exact poised_next category

variable {phase : Phase}

theorem poised_advance (poised : Poised cipher settings phase) (draw : Draw) :
    Poised cipher (phase.effect draw settings) (phase.advance cipher draw settings) := by
  have listed := poised.listed
  have due := poised.due
  cases phase with
  | idle => exact poised_idle
  | listing category => exact poised_visit fun key member => (mem_listSettings.mp member).2
  | reading category key rest =>
    have lists := listed category rfl
    unfold Phase.advance Phase.effect
    dsimp only
    split
    · refine ⟨?_, rfl⟩
      rintro other ⟨⟩
      exact lists
    · exact poised_visit fun other member => lists other (List.mem_cons_of_mem _ member)
  | looking category key rest plaintext =>
    have lists := listed category rfl
    unfold Phase.advance Phase.effect
    dsimp only
    split
    · exact poised_next category
    · exact poised_visit fun other member => lists other (List.mem_cons_of_mem _ member)
    case h_3 encrypted absent =>
      have ⟨free, text, isText, decrypted⟩ := lookUp_absent absent
      refine ⟨?_, free, text, due.trans isText, decrypted⟩
      rintro other ⟨⟩
      exact lists
  | storing category key rest encrypted =>
    have lists := listed category rfl
    rcases due with ⟨_, text, isText, decrypted⟩
    refine ⟨?_, text, ?_, atHand_stored decrypted ((get_set _ _ _ _).trans (if_pos rfl))⟩
    · rintro other ⟨⟩
      exact lists
    · have apart := (vaultKey_ne_of_lists (lists key List.mem_cons_self)
        (category.credentialId key)).symm
      exact (congrArg category.plaintext ((get_set _ _ _ _).trans (if_neg apart))).trans isText
  | deleting category key rest =>
    exact poised_visit fun other member => listed category rfl other (List.mem_cons_of_mem _ member)
  | flagging => exact poised_idle

theorem sound_step (sound : Sound cipher initial state) (input : MigrationInput) :
    Sound cipher initial (state.step cipher input) := by
  have keepsIf (draw : Draw) (done : Bool) : Keeps cipher initial
      (if done then state.phase.effect draw state.settings else state.settings) := by
    cases done with
    | true => exact keeps_effect sound draw
    | false => exact sound.keeps
  cases input with
  | begin =>
    unfold MigrationState.step
    dsimp only
    split
    · split
      · exact sound
      · exact ⟨sound.keeps, fun _ _ _ member => (nomatch member), trivial⟩
    · exact sound
  | returns draw => exact ⟨keeps_effect sound draw, poised_advance sound.poised draw⟩
  | raises draw done => exact ⟨keepsIf draw done, poised_breakOff _⟩
  | crashes draw done => exact ⟨keepsIf draw done, poised_idle⟩

/-! ## Which plaintexts are left -/

def Phase.MayHold (phase : Phase) (category : Category) (key : String) : Prop :=
  match phase with
  | .idle => True
  | .flagging => False
  | .listing current => category = current ∨ current = .messenger
  | _ => (phase.category? = some category ∧ key ∈ phase.keys) ∨
      (phase.category? = some .messenger ∧ category = .oauth)

structure Pending (settings : SettingsTable) (phase : Phase) : Prop where
  left : ∀ category key, category.Owns key ->
    (category.plaintext (settings.get key)).truthy = true -> phase.MayHold category key
  flagged : (settings.get doneKey).truthy = true -> ∀ category, HoldsNone category settings

theorem mayHold_visit {keys : List String}
    (earlier : category = .oauth -> HoldsNone .messenger settings)
    (within : ∀ key, category.Owns key ->
      (category.plaintext (settings.get key)).truthy = true -> key ∈ keys) (owned : other.Owns key)
    (truthy : (other.plaintext (settings.get key)).truthy = true) :
    (visit category keys).MayHold other key := by
  have inOrder : (other = category ∧ key ∈ keys) ∨ (category = .messenger ∧ other = .oauth) := by
    cases category with
    | messenger =>
      cases other with
      | messenger => exact .inl ⟨rfl, within key owned truthy⟩
      | oauth => exact .inr ⟨rfl, rfl⟩
    | oauth =>
      cases other with
      | messenger => cases (earlier rfl key owned).symm.trans truthy
      | oauth => exact .inl ⟨rfl, within key owned truthy⟩
  cases keys with
  | nil =>
    rcases inOrder with ⟨_, none_⟩ | ⟨rfl, rfl⟩
    · cases none_
    · exact .inl rfl
  | cons first rest =>
    rcases inOrder with ⟨rfl, member⟩ | ⟨rfl, rfl⟩
    · exact .inl ⟨rfl, member⟩
    · exact .inr ⟨rfl, rfl⟩

theorem Pending.noMessenger (pending : Pending settings phase)
    (oauth : phase.category? = some .oauth) : HoldsNone .messenger settings := by
  intro key owned
  refine Bool.eq_false_iff.mpr fun truthy => ?_
  have held := pending.left .messenger key owned truthy
  cases phase with
  | idle => cases oauth
  | flagging => cases oauth
  | listing current =>
    cases oauth
    rcases held with same | same <;> cases same
  | _ =>
    cases oauth
    rcases held with ⟨same, _⟩ | ⟨same, _⟩ <;> cases same

theorem Pending.within (pending : Pending settings phase)
    {first : String} {rest : List String} (current : phase.category? = some category)
    (keys : phase.keys = first :: rest) (key : String) (owned : category.Owns key)
    (truthy : (category.plaintext (settings.get key)).truthy = true) : key ∈ first :: rest := by
  have held := pending.left category key owned truthy
  rw [← keys]
  cases phase with
  | idle => cases current
  | flagging => cases current
  | listing other => cases keys
  | _ =>
    rcases held with ⟨_, member⟩ | ⟨same, isOauth⟩
    · exact member
    · cases current.symm.trans same
      cases isOauth

theorem plaintext_null (category : Category) : (category.plaintext .null).truthy = false := by
  cases category <;> rfl

theorem truthy_before {draw : Draw} (owned : category.Owns key)
    (truthy : (category.plaintext ((phase.effect draw settings).get key)).truthy = true) :
    (category.plaintext (settings.get key)).truthy = true := by
  rcases get_effect draw phase owned.lists with same | ⟨_, gone⟩
  · exact same ▸ truthy
  · rw [gone, plaintext_null] at truthy
    cases truthy

theorem HoldsNone.effect (none_ : HoldsNone category settings) (draw : Draw)
    (phase : Phase) : HoldsNone category (phase.effect draw settings) := by
  intro key owned
  refine Bool.eq_false_iff.mpr fun truthy => ?_
  cases (none_ key owned).symm.trans (truthy_before owned truthy)

theorem flagged_effect (poised : Poised cipher settings phase)
    (pending : Pending settings phase) (draw : Draw)
    (flagged : ((phase.effect draw settings).get doneKey).truthy = true) (category : Category) :
    HoldsNone category (phase.effect draw settings) := by
  have before (same : (phase.effect draw settings).get doneKey = settings.get doneKey) :
      HoldsNone category (phase.effect draw settings) :=
    (pending.flagged (same ▸ flagged) category).effect draw phase
  cases phase with
  | flagging =>
    refine HoldsNone.effect (fun key owned => Bool.eq_false_iff.mpr fun truthy => ?_) draw _
    exact pending.left category key owned truthy
  | storing current key rest encrypted =>
    exact before ((get_set _ _ _ _).trans (if_neg (doneKey_ne_vaultKey _)))
  | deleting current key rest =>
    have lists := poised.listed current rfl key List.mem_cons_self
    exact before (get_pop_of_ne _ (doneKey_ne_of_lists lists))
  | _ => exact before rfl

theorem mayHold_rest {first : String} {rest : List String}
    (earlier : category = .oauth -> HoldsNone .messenger settings)
    (within : ∀ key, category.Owns key ->
      (category.plaintext (settings.get key)).truthy = true -> key ∈ first :: rest)
    (bare : category.Owns first -> (category.plaintext (settings.get first)).truthy = false)
    (owned : other.Owns key) (truthy : (other.plaintext (settings.get key)).truthy = true) :
    (visit category rest).MayHold other key := by
  refine mayHold_visit earlier (fun own owns plain => ?_) owned truthy
  rcases List.mem_cons.mp (within own owns plain) with rfl | later
  · cases (bare owns).symm.trans plain
  · exact later

theorem mayHold_next (earlier : category = .oauth -> HoldsNone .messenger settings)
    (none_ : HoldsNone category settings)
    (owned : other.Owns key) (truthy : (other.plaintext (settings.get key)).truthy = true) :
    category.next.MayHold other key := by
  rw [next_eq_visit]
  refine mayHold_visit earlier (fun own owns plain => ?_) owned truthy
  cases (none_ own owns).symm.trans plain

theorem pending_advance (poised : Poised cipher settings phase)
    (pending : Pending settings phase) {draw : Draw}
    (unhindered : Unhindered cipher ⟨settings, phase⟩ (.returns draw)) :
    Pending (phase.effect draw settings) (phase.advance cipher draw settings) := by
  refine ⟨?_, flagged_effect poised pending draw⟩
  intro other key owned after
  have truthy := truthy_before owned after
  have held := pending.left other key owned truthy
  cases phase with
  | idle => exact held
  | flagging => exact trivial
  | listing category =>
    refine mayHold_visit (fun isOauth => pending.noMessenger (congrArg some isOauth)) ?_ owned truthy
    exact fun own owns plain => mem_listSettings.mpr ⟨mem_keys_of_truthy plain, owns.lists⟩
  | reading category first rest =>
    have earlier (isOauth : category = .oauth) := pending.noMessenger (congrArg some isOauth)
    have within := pending.within (rfl : _ = some category) rfl
    unfold Phase.advance
    dsimp only
    split
    · exact held
    case isFalse bare =>
      exact mayHold_rest earlier within (fun _ => Bool.eq_false_iff.mpr bare) owned truthy
  | looking category first rest plaintext =>
    have earlier (isOauth : category = .oauth) := pending.noMessenger (congrArg some isOauth)
    have within := pending.within (rfl : _ = some category) rfl
    unfold Unhindered at unhindered
    unfold Phase.advance
    dsimp only at unhindered ⊢
    cases answer : lookUp cipher draw.nonce settings (category.credentialId first) plaintext with
    | raised =>
      rw [answer] at unhindered
      exact mayHold_next earlier unhindered owned truthy
    | present =>
      rw [answer] at unhindered
      exact mayHold_rest earlier within (fun owns => absurd owns unhindered) owned truthy
    | absent encrypted => exact held
  | storing category first rest encrypted => exact held
  | deleting category first rest =>
    have earlier (isOauth : category = .oauth) :=
      (pending.noMessenger (congrArg some isOauth)).effect draw (.deleting category first rest)
    have within (own : String) (owns : category.Owns own)
        (plain : (category.plaintext (SettingsTable.get
          ((Phase.deleting category first rest).effect draw settings) own)).truthy = true) :
        own ∈ first :: rest := pending.within rfl rfl own owns (truthy_before owns plain)
    refine mayHold_rest earlier within (fun _ => ?_) owned after
    have gone : ((Phase.deleting category first rest).effect draw settings).get first = .null :=
      get_pop_self settings first
    rw [gone]
    exact plaintext_null category

theorem pending_step (sound : Sound cipher initial state)
    (pending : Pending state.settings state.phase) {input : MigrationInput}
    (unhindered : Unhindered cipher state input) :
    Pending (state.step cipher input).settings (state.step cipher input).phase := by
  have flaggedIf (draw : Draw) (done : Bool) : ∀ flagged : (SettingsTable.get
      (if done then state.phase.effect draw state.settings else state.settings) doneKey).truthy = true,
      ∀ category, HoldsNone category
        (if done then state.phase.effect draw state.settings else state.settings) := by
    cases done with
    | true => exact flagged_effect sound.poised pending draw
    | false => exact pending.flagged
  cases input with
  | begin =>
    unfold MigrationState.step
    dsimp only
    split
    · split
      · exact pending
      · exact ⟨fun _ _ _ _ => .inr rfl, pending.flagged⟩
    · exact pending
  | returns draw => exact pending_advance sound.poised pending unhindered
  | crashes draw done => exact ⟨fun _ _ _ _ => trivial, flaggedIf draw done⟩
  | raises draw done =>
    refine ⟨?_, flaggedIf draw done⟩
    intro other key owned truthy
    change (state.phase.breakOff).MayHold other key
    unfold Phase.breakOff
    cases current : state.phase.category? with
    | none => exact trivial
    | some category =>
      refine mayHold_next (fun isOauth => ?_) (unhindered category current) owned truthy
      have before := pending.noMessenger (isOauth ▸ current)
      cases done with
      | true => exact before.effect draw state.phase
      | false => exact before

theorem migrated (sound : Sound cipher initial state)
    (pending : Pending state.settings state.phase) : Migrated cipher initial state where
  keeps := sound.keeps
  complete := pending.flagged
  retrievable := by
    intro flagged category key text plain
    rcases sound.keeps.plaintexts category key text plain with same | atHand
    · have gone := pending.flagged flagged category key plain.owned
      rw [same, plain.plaintext] at gone
      exact absurd (decide_eq_false_iff_not.mp gone) (not_not_intro plain.some_)
    · exact atHand

theorem credentials_kept (cipher : Cipher) (initial : SettingsTable) (inputs : List MigrationInput) :
    (migrationMachine cipher initial).EveryState (fun state => Keeps cipher initial state.settings)
      inputs := by
  intro before _ _
  exact ((migrationMachine cipher initial).invariant_after (Sound cipher initial) sound_initial
    (fun _ input sound => sound_step sound input) before).keeps

/-- However the attempts are interrupted, the flag is set on a completed migration
only, unless a category with plaintexts was broken off or a plaintext was in the vault
already. -/
theorem migration_complete (cipher : Cipher) (initial : SettingsTable)
    (undone : (initial.get doneKey).truthy = true -> ∀ category, HoldsNone category initial)
    (inputs : List MigrationInput)
    (unhindered : (migrationMachine cipher initial).EveryStep (Unhindered cipher) inputs) :
    (migrationMachine cipher initial).EveryState (Migrated cipher initial) inputs := by
  let invariant (state : MigrationState) : Prop :=
    Sound cipher initial state ∧ Pending state.settings state.phase
  have initially : invariant (migrationMachine cipher initial).initial :=
    ⟨sound_initial, fun _ _ _ _ => trivial, undone⟩
  have kept (state : MigrationState) (input : MigrationInput) (holds : invariant state)
      (guard : Unhindered cipher state input) : invariant (state.step cipher input) :=
    ⟨sound_step holds.1 input, pending_step holds.1 holds.2 guard⟩
  intro before rest split
  have reached := (migrationMachine cipher initial).guarded_everyState invariant (Unhindered cipher)
    initially kept inputs unhindered before rest split
  exact migrated reached.1 reached.2

def plainCipher : Cipher where
  encrypt := fun _ text => some text
  decrypt := some
  decrypts := by
    rintro _ text _ ⟨⟩
    rfl

def someDraw : Draw where
  rank := fun _ => 0
  nonce := 0
  now := 0

def slackToken : SettingsTable :=
  [("messenger_token:SLACK_BOT_TOKEN", .obj [("value", .str "xoxb-1")])]

def wholeAttempt : List MigrationInput := .begin :: List.replicate 7 (.returns someDraw)

theorem migration_complete_slackToken :
    (migrationMachine plainCipher slackToken).EveryState (Migrated plainCipher slackToken)
      wholeAttempt := by
  refine migration_complete plainCipher slackToken (fun flagged => by cases flagged) wholeAttempt ?_
  refine (Machine.everyStep_iff_stepsFrom _ _ _).mpr ?_
  exact ⟨trivial, trivial, trivial, trivial, trivial, trivial, trivial, trivial, trivial⟩

/-- The process ends after the token was stored; the next attempt finds it in the vault,
leaves it where it is and sets the flag. -/
theorem plaintext_left_after_crash :
    Not ((migrationMachine plainCipher slackToken).EveryState (Migrated plainCipher slackToken)
      (.begin :: (List.replicate 3 (.returns someDraw) ++ .crashes someDraw true :: .begin ::
        List.replicate 5 (.returns someDraw)))) := by
  intro every
  have last := every _ [] (List.append_nil _).symm
  have owned : Category.messenger.Owns "messenger_token:SLACK_BOT_TOKEN" :=
    ⟨"SLACK_BOT_TOKEN".toList, rfl⟩
  cases last.complete rfl .messenger _ owned

end Storage
end BreadMind
