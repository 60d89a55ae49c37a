import BreadMind.Base.Values
import Mathlib.Data.List.Range

namespace BreadMind
namespace Network

/-!
# Messages between the commander and its agents

A frame is the text of one message with the digest of the message under the
session key.  How a text is read and what the digest function is are left open;
a frame is authentic when the digest it carries is the one computed.

The payload belongs to the type of a message, so the two are one here.  Times
are microseconds.
-/

inductive MessageType where
  | taskAssign
  | taskResult
  | llmRequest
  | llmResponse
  | heartbeat
  | sync
  | roleUpdate
  | command

/-- What an agent reports of one task; `metrics` is the duration, where there is one. -/
structure TaskResult where
  taskId : String
  status : String
  output : String
  durationMs : Option Int := none
  deriving DecidableEq

inductive Payload where
  | taskAssign (taskId idempotencyKey kind tool : String) (arguments : Json)
  | taskResult (result : TaskResult)
  | llmRequest (messages tools : Json)
  | llmResponse (content : Json)
  | heartbeat (host : String) (environment metrics : Json)
  | sync (results : List TaskResult)
  | roleUpdate (role : Json)
  | command (action : String) (params : Json)

def Payload.type : Payload -> MessageType
  | taskAssign .. => .taskAssign
  | taskResult _ => .taskResult
  | llmRequest .. => .llmRequest
  | llmResponse _ => .llmResponse
  | heartbeat .. => .heartbeat
  | sync _ => .sync
  | roleUpdate _ => .roleUpdate
  | command .. => .command

structure MessageEnvelope where
  protocolVersion : Int := 1
  id : String
  seq : Int := 0
  source : String
  target : String
  timestamp : String
  payload : Payload
  traceId : Option String := none
  replyTo : Option String := none

def createMessage (id timestamp source target : String) (payload : Payload) (seq : Int := 0)
    (traceId replyTo : Option String := none) : MessageEnvelope where
  id := id
  seq := seq
  source := source
  target := target
  timestamp := timestamp
  payload := payload
  traceId := traceId
  replyTo := replyTo

/-- Reading a text, with the digest it carries, and the digest of a message. -/
structure Wire where
  loads : String -> Option (MessageEnvelope × Option String)
  computeHmac : MessageEnvelope -> String -> String

inductive MessageError where
  | unreadable
  | integrity

def deserializeMessage (wire : Wire) (raw sessionKey : String) :
    Except MessageError MessageEnvelope :=
  match wire.loads raw with
  | none => .error .unreadable
  | some (message, received) =>
    if received.getD "" = wire.computeHmac message sessionKey then .ok message
    else .error .integrity

/-! ## The tracker of sequence numbers -/

inductive MessageSequenceError where
  | unexpected (expected got : Int)
  | tooOld (age : Int)
  | badTimestamp (timestamp : String)

/-- What `validate_incoming` raises. -/
inductive IncomingError where
  | sequence (error : MessageSequenceError)
  | typeError (text : String)

/-- What `datetime.fromisoformat` reads, with a time zone or without one. -/
structure Datetime where
  time : Int
  aware : Bool

structure SequenceTracker where
  outgoing : Nat := 0
  incoming : Int := 0

namespace SequenceTracker

def maxMessageAge : Int := 300 * 1000000

def nextSeq (tracker : SequenceTracker) : Nat × SequenceTracker :=
  (tracker.outgoing + 1, { tracker with outgoing := tracker.outgoing + 1 })

variable (fromIsoformat : String -> Option Datetime)

/-- The check of the timestamp in `validate_incoming`.  The clock has a time zone. -/
def checkAge (now : Int) (timestamp : Option String) : Except IncomingError Unit :=
  match timestamp with
  | none => .ok ()
  | some "" => .ok ()
  | some text =>
    match fromIsoformat text with
    | none => .error (.sequence (.badTimestamp text))
    | some read =>
      let age := (now - read.time).natAbs
      if !read.aware then
        .error (.typeError "can't subtract offset-naive and offset-aware datetimes")
      else if maxMessageAge < age then .error (.sequence (.tooOld age))
      else .ok ()

def validateIncoming (tracker : SequenceTracker) (now seq : Int) (timestamp : Option String) :
    Except IncomingError SequenceTracker :=
  if seq ≠ tracker.incoming + 1 then .error (.sequence (.unexpected (tracker.incoming + 1) seq))
  else (checkAge fromIsoformat now timestamp).map fun _ => { tracker with incoming := seq }

/-- An incoming message as the tracker sees it: the clock, its number and its timestamp. -/
abbrev Attempt := Int × Int × Option String

def acceptAll (tracker : SequenceTracker) : List Attempt -> List Int × SequenceTracker
  | [] => ([], tracker)
  | (now, seq, timestamp) :: rest =>
    match tracker.validateIncoming fromIsoformat now seq timestamp with
    | .error _ => acceptAll tracker rest
    | .ok next => let (accepted, last) := acceptAll next rest; (seq :: accepted, last)

variable {fromIsoformat}

theorem validateIncoming_ok {tracker next : SequenceTracker} {now seq : Int}
    {timestamp : Option String}
    (accepted : tracker.validateIncoming fromIsoformat now seq timestamp = .ok next) :
    seq = tracker.incoming + 1 ∧ next.incoming = seq := by
  unfold validateIncoming at accepted
  split at accepted
  · cases accepted
  case isFalse expected =>
    refine ⟨not_not.mp expected, ?_⟩
    cases age : checkAge fromIsoformat now timestamp with
    | error failure =>
      rw [age] at accepted
      cases accepted
    | ok _ =>
      rw [age] at accepted
      cases accepted
      rfl

theorem acceptAll_consecutive (tracker : SequenceTracker) (attempts : List Attempt) :
    ∃ count : Nat, (tracker.acceptAll fromIsoformat attempts).1 =
      (List.range count).map fun place : Nat => tracker.incoming + 1 + (place : Int) := by
  induction attempts generalizing tracker with
  | nil => exact ⟨0, rfl⟩
  | cons attempt rest ih =>
    rcases attempt with ⟨now, seq, timestamp⟩
    unfold acceptAll
    cases answer : tracker.validateIncoming fromIsoformat now seq timestamp with
    | error failure => exact ih tracker
    | ok next =>
      rcases validateIncoming_ok answer with ⟨expected, now⟩
      rcases ih next with ⟨count, accepted⟩
      refine ⟨count + 1, ?_⟩
      change seq :: (next.acceptAll fromIsoformat rest).1 = _
      rw [accepted, List.range_succ_eq_map, List.map_cons, List.map_map, now, expected]
      refine congrArg₂ List.cons (Int.add_zero _).symm (List.map_congr_left ?_)
      intro place _
      change _ = tracker.incoming + 1 + ((place + 1 : Nat) : Int)
      omega

theorem acceptAll_fresh (attempts : List Attempt) :
    ∃ count : Nat, (acceptAll fromIsoformat {} attempts).1 =
      (List.range count).map fun place : Nat => (place : Int) + 1 := by
  rcases @acceptAll_consecutive fromIsoformat {} attempts with ⟨count, accepted⟩
  refine ⟨count, accepted.trans (List.map_congr_left ?_)⟩
  intro place _
  change 0 + 1 + (place : Int) = (place : Int) + 1
  omega

def issue (tracker : SequenceTracker) : Nat -> List Int
  | 0 => []
  | count + 1 => (tracker.nextSeq.1 : Int) :: issue tracker.nextSeq.2 count

theorem issue_eq (tracker : SequenceTracker) (count : Nat) : tracker.issue count =
    (List.range count).map fun place : Nat => ((tracker.outgoing + place : Nat) : Int) + 1 := by
  induction count generalizing tracker with
  | zero => rfl
  | succ count ih =>
    unfold issue
    rw [ih, List.range_succ_eq_map, List.map_cons, List.map_map]
    refine congrArg₂ List.cons rfl (List.map_congr_left fun place _ => ?_)
    change ((tracker.outgoing + 1 + place : Nat) : Int) + 1 = ((tracker.outgoing + (place + 1) : Nat) : Int) + 1
    omega

theorem mem_acceptAll {tracker : SequenceTracker} {attempts : List Attempt} {seq : Int}
    (accepted : seq ∈ (tracker.acceptAll fromIsoformat attempts).1) :
    ∃ attempt ∈ attempts, attempt.2.1 = seq := by
  induction attempts generalizing tracker with
  | nil => cases accepted
  | cons attempt rest ih =>
    rcases attempt with ⟨now, number, timestamp⟩
    unfold acceptAll at accepted
    split at accepted
    case h_1 => exact (ih accepted).imp fun _ found => ⟨List.mem_cons_of_mem _ found.1, found.2⟩
    case h_2 =>
      rcases List.mem_cons.mp accepted with rfl | later
      · exact ⟨_, List.mem_cons_self, rfl⟩
      · exact (ih later).imp fun _ found => ⟨List.mem_cons_of_mem _ found.1, found.2⟩

/-- Over a channel which may lose, repeat and reorder what one side sends, the other side accepts what
was sent up to some message, in order and once. -/
theorem acceptAll_prefix (count : Nat) {attempts : List Attempt}
    (sent : ∀ attempt ∈ attempts, attempt.2.1 ∈ issue {} count) :
    (acceptAll fromIsoformat {} attempts).1 <+: issue {} count := by
  rcases @acceptAll_fresh fromIsoformat attempts with ⟨made, accepted⟩
  have numbers : issue {} count = (List.range count).map fun place : Nat => (place : Int) + 1 := by
    rw [issue_eq]
    refine List.map_congr_left fun place _ => ?_
    change ((0 + place : Nat) : Int) + 1 = place + 1
    omega
  rw [numbers] at sent ⊢
  have within : made ≤ count := by
    cases made with
    | zero => exact Nat.zero_le count
    | succ last =>
      have here : (last : Int) + 1 ∈ (acceptAll fromIsoformat {} attempts).1 := by
        rw [accepted]
        exact List.mem_map.mpr ⟨last, List.mem_range.mpr (Nat.lt_succ_self last), rfl⟩
      rcases mem_acceptAll here with ⟨attempt, member, same⟩
      rcases List.mem_map.mp (sent attempt member) with ⟨place, inRange, equal⟩
      have := List.mem_range.mp inRange
      omega
  rw [accepted, ← Nat.min_eq_left within, ← List.take_range, List.map_take]
  exact List.take_prefix _ _

/-- The second message is overtaken by the third one, and the first one comes twice. -/
theorem acceptAll_prefix_three : (acceptAll (fun _ => none) {}
    [(0, 1, none), (0, 3, none), (0, 1, none), (0, 2, none)]).1 <+: issue {} 3 :=
  acceptAll_prefix 3 (by decide)

end SequenceTracker

end Network
end BreadMind
