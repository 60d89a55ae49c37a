import BreadMind.Execution.Machine
import BreadMind.Text.Searching

namespace BreadMind
namespace Messenger

open Execution
open Text

/-!
# Streaming to a messenger

The chunks of an answer are collected in a buffer.  Between them the buffer may be
shown as a preview, cut to what the platform takes, and with the last one the whole
of it is sent.  A flag tells whether the text stands inside of a code fence.

What the adapter hands over to its platform is recorded.  Times are microseconds
of the monotonic clock.
-/

structure StreamConfig where
  minChars : Int := 50
  maxChars : Int := 4000
  updateIntervalMs : Int := 1000
  coalesce : Bool := true
  codeFenceAware : Bool := true

/-- A chunk with the answers of the outside: the clock before and after the update,
and the message id that `send_initial` returns. -/
structure StreamChunk where
  text : List Char
  isFinal : Bool := false
  now : Int
  sentAt : Int
  answer : Option String

structure StreamAdapter where
  buffer : List Char := []
  lastSendTime : Int := 0
  inCodeFence : Bool := false
  messageId : Option String := none

inductive Sent where
  | initial (text : List Char)
  | update (text : List Char) (messageId : String)
  | final (text : List Char) (messageId : Option String)

def Sent.text : Sent -> List Char
  | .initial text => text
  | .update text _ => text
  | .final text _ => text

def fence : List Char := List.replicate 3 (Char.ofNat 96)

/-- What `_truncate` puts behind a text which it has cut inside of a fence. -/
def closingFence : List Char := '\n' :: fence

/-- What `_find_break_point` looks for, in the order of its preference. -/
def breakPatterns : List (List Char) :=
  [['\n', '\n'], ['\n'], ['.', ' '], ['!', ' '], ['?', ' '], ['\u3002'], ['\uff01'], ['\uff1f'], [' ']]

def findBreakPoint (text : List Char) (maxPos : Int) : Int :=
  let found := breakPatterns.findSome? fun pattern =>
    match rfind pattern text maxPos with
    | some place => if 0 < place then some ((place + pattern.length : Nat) : Int) else none
    | none => none
  found.getD maxPos

/-- The text up to its break point. -/
def cutText (config : StreamConfig) (text : List Char) : List Char :=
  slice text (findBreakPoint text config.maxChars)

def truncateText (config : StreamConfig) (text : List Char) : List Char :=
  if (text.length : Int) ≤ config.maxChars then text
  else if count fence (cutText config text) % 2 = 1 then cutText config text ++ closingFence
  else cutText config text

def trackCodeFence (inCodeFence : Bool) (text : List Char) : Bool :=
  if count fence text % 2 = 1 then !inCodeFence else inCodeFence

variable (adapter : StreamAdapter)

/-- The adapter with the text of the chunk in its buffer. -/
def StreamAdapter.receive (text : List Char) : StreamAdapter :=
  { adapter with
    buffer := adapter.buffer ++ text, inCodeFence := trackCodeFence adapter.inCodeFence text }

def flushUpdate (config : StreamConfig) (adapter : StreamAdapter) (chunk : StreamChunk) :
    StreamAdapter × List Sent :=
  if adapter.buffer.isEmpty then (adapter, [])
  else
    let text := truncateText config adapter.buffer
    match adapter.messageId with
    | none => ({ adapter with messageId := chunk.answer, lastSendTime := chunk.sentAt }, [.initial text])
    | some messageId => ({ adapter with lastSendTime := chunk.sentAt }, [.update text messageId])

def flushFinal : StreamAdapter × List Sent :=
  ({ adapter with buffer := [], messageId := none }, [.final adapter.buffer adapter.messageId])

/-- Whether an update is sent, once the text of the chunk has been received. -/
def shouldSend (config : StreamConfig) (adapter : StreamAdapter) (now : Int) : Bool :=
  !(config.codeFenceAware && adapter.inCodeFence) &&
    (decide (config.minChars ≤ adapter.buffer.length) &&
      decide (config.updateIntervalMs * 1000 ≤ now - adapter.lastSendTime))

def processChunk (config : StreamConfig) (adapter : StreamAdapter) (chunk : StreamChunk) :
    StreamAdapter × List Sent :=
  let received := adapter.receive chunk.text
  if chunk.isFinal then flushFinal received
  else if shouldSend config received chunk.now then flushUpdate config received chunk
  else (received, [])

/-- The adapter, and what was received since the last final chunk. -/
structure Stream where
  adapter : StreamAdapter := {}
  received : List Char := []

def Stream.next (config : StreamConfig) (stream : Stream) (chunk : StreamChunk) : Stream where
  adapter := (processChunk config stream.adapter chunk).1
  received := if chunk.isFinal then [] else stream.received ++ chunk.text

def streaming (config : StreamConfig) : Machine Stream StreamChunk where
  initial := {}
  step := Stream.next config

/-- Whether a text ends inside of a code fence. -/
def fenced (text : List Char) : Bool :=
  decide (count fence text % 2 = 1)

/-- The flag is right after the chunk, what is handed over is short enough, and a
final chunk hands over all that was received. -/
structure Streamed (config : StreamConfig) (stream : Stream) (chunk : StreamChunk) : Prop where
  flag : (stream.next config chunk).adapter.inCodeFence = fenced (stream.next config chunk).received
  bounded : ∀ sent ∈ (processChunk config stream.adapter chunk).2,
    (sent.text.length : Int) ≤ config.maxChars
  complete : chunk.isFinal = true -> ∃ messageId,
    (processChunk config stream.adapter chunk).2 = [.final (stream.received ++ chunk.text) messageId]

/-- Where the text is cut no fence is open, or there is room for the closing one. -/
def Fits (config : StreamConfig) (text : List Char) : Prop :=
  (text.length : Int) ≤ config.maxChars ∨
    0 ≤ config.maxChars ∧ (count fence (cutText config text) % 2 = 0 ∨
      ((cutText config text).length : Int) + 4 ≤ config.maxChars)

/-- An update is due with the chunk. -/
def Due (config : StreamConfig) (stream : Stream) (chunk : StreamChunk) : Prop :=
  stream.received ++ chunk.text ≠ [] ∧
    shouldSend config (stream.adapter.receive chunk.text) chunk.now = true

structure Intact (config : StreamConfig) (stream : Stream) (chunk : StreamChunk) : Prop where
  undivided : chunk.isFinal = false ->
    count fence (stream.received ++ chunk.text) % 2 =
      (count fence stream.received + count fence chunk.text) % 2
  closed : chunk.isFinal = true ->
    (count fence stream.received + count fence chunk.text) % 2 = 0
  preview : chunk.isFinal = false -> Due config stream chunk ->
    Fits config (stream.received ++ chunk.text)
  whole : chunk.isFinal = true ->
    ((stream.received ++ chunk.text).length : Int) ≤ config.maxChars

variable {config : StreamConfig} {stream : Stream} {chunk : StreamChunk} {text : List Char}

theorem findBreakPoint_cases (text : List Char) (maxPos : Int) :
    findBreakPoint text maxPos = maxPos ∨ ∃ place : Nat,
      findBreakPoint text maxPos = place ∧ 0 < place ∧ place ≤ clampEnd text.length maxPos := by
  unfold findBreakPoint
  dsimp only
  cases found : breakPatterns.findSome? fun pattern =>
      match rfind pattern text maxPos with
      | some place => if 0 < place then some ((place + pattern.length : Nat) : Int) else none
      | none => none with
  | none => exact .inl rfl
  | some place =>
    right
    rcases List.exists_of_findSome?_eq_some found with ⟨pattern, _, here⟩
    split at here
    case h_2 => cases here
    case h_1 start atStart =>
      split at here
      case isFalse => cases here
      case isTrue positive =>
        cases here
        exact ⟨start + pattern.length, rfl, Nat.add_pos_left positive _, le_of_rfind atStart⟩

theorem length_cutText_le (positive : 0 ≤ config.maxChars) (text : List Char) :
    ((cutText config text).length : Int) ≤ config.maxChars := by
  unfold cutText
  rw [length_slice]
  rcases findBreakPoint_cases text config.maxChars with same | ⟨place, same, _, inside⟩
  · rw [same]
    exact clampEnd_le_stop _ positive
  · have limit := clampEnd_le_stop text.length positive
    rw [same, clampEnd_of_le (le_trans inside (clampEnd_le _ _))]
    omega

theorem truncateText_fits (config : StreamConfig) (text : List Char) :
    ((truncateText config text).length : Int) ≤ config.maxChars <-> Fits config text := by
  unfold truncateText Fits
  by_cases short : (text.length : Int) ≤ config.maxChars
  · rw [if_pos short]
    exact iff_of_true short (.inl short)
  · rw [if_neg short, or_iff_right short]
    by_cases positive : 0 ≤ config.maxChars
    · rw [and_iff_right positive]
      have cut := length_cutText_le positive text
      split
      case isTrue opened =>
        have closing : closingFence.length = 4 := rfl
        rw [List.length_append, closing, or_iff_right (by omega)]
        exact Iff.of_eq (by push_cast; rfl)
      case isFalse even => exact iff_of_true cut (.inl (by omega))
    · refine iff_of_false ?_ fun both => positive both.1
      intro bounded
      exact positive (Int.le_trans (Int.natCast_nonneg _) bounded)

/-! ## The flag and the buffer -/

structure Stream.Sound (stream : Stream) : Prop where
  buffer : stream.adapter.buffer = stream.received
  flag : stream.adapter.inCodeFence = fenced stream.received

theorem trackCodeFence_fenced (before text : List Char) : trackCodeFence (fenced before) text =
      decide ((count fence before + count fence text) % 2 = 1) := by
  unfold trackCodeFence fenced
  split
  case isTrue odd =>
    rw [← decide_not, decide_eq_decide]
    omega
  case isFalse even =>
    rw [decide_eq_decide]
    omega

theorem flushUpdate_adapter (chunk : StreamChunk) :
    (flushUpdate config adapter chunk).1.buffer = adapter.buffer ∧
      (flushUpdate config adapter chunk).1.inCodeFence = adapter.inCodeFence := by
  unfold flushUpdate
  split
  case isTrue => exact ⟨rfl, rfl⟩
  case isFalse =>
    dsimp only
    split <;> exact ⟨rfl, rfl⟩

theorem processChunk_open (open_ : chunk.isFinal = false) :
    (processChunk config stream.adapter chunk).1.buffer = stream.adapter.buffer ++ chunk.text ∧
      (processChunk config stream.adapter chunk).1.inCodeFence =
        trackCodeFence stream.adapter.inCodeFence chunk.text := by
  unfold processChunk
  dsimp only
  rw [open_, if_neg Bool.false_ne_true]
  split
  case isTrue => exact flushUpdate_adapter _ _
  case isFalse => exact ⟨rfl, rfl⟩

theorem processChunk_final (closes : chunk.isFinal = true) :
    processChunk config stream.adapter chunk = flushFinal (stream.adapter.receive chunk.text) := by
  unfold processChunk
  dsimp only
  rw [closes, if_pos rfl]

theorem Stream.Sound.sent (sound : stream.Sound) (open_ : chunk.isFinal = false) (sent : Sent) :
    sent ∈ (processChunk config stream.adapter chunk).2 ->
      Due config stream chunk ∧ sent.text = truncateText config (stream.received ++ chunk.text) := by
  unfold processChunk
  dsimp only
  rw [open_, if_neg Bool.false_ne_true]
  have buffer : (stream.adapter.receive chunk.text).buffer = stream.received ++ chunk.text := by
    rw [← sound.buffer]
    rfl
  split
  case isFalse => exact fun absent => nomatch absent
  case isTrue send =>
    unfold flushUpdate
    rw [buffer]
    split
    case isTrue => exact fun absent => nomatch absent
    case isFalse some_ =>
      rw [List.isEmpty_iff] at some_
      dsimp only
      split
      all_goals
        intro member
        rw [List.mem_singleton.mp member]
        exact ⟨⟨some_, send⟩, rfl⟩

theorem Stream.Sound.sends (sound : stream.Sound) (open_ : chunk.isFinal = false)
    (due : Due config stream chunk) :
    ∃ sent, (processChunk config stream.adapter chunk).2 = [sent] ∧
      sent.text = truncateText config (stream.received ++ chunk.text) := by
  unfold processChunk
  dsimp only
  rw [open_, if_neg Bool.false_ne_true, if_pos due.2]
  have buffer : (stream.adapter.receive chunk.text).buffer = stream.received ++ chunk.text := by
    rw [← sound.buffer]
    rfl
  unfold flushUpdate
  rw [buffer, if_neg (by rw [List.isEmpty_iff]; exact due.1)]
  dsimp only
  split
  · exact ⟨_, rfl, rfl⟩
  · exact ⟨_, rfl, rfl⟩

theorem Stream.received_open (stream : Stream) (config : StreamConfig)
    (closes : chunk.isFinal = false) :
    (stream.next config chunk).received = stream.received ++ chunk.text := by
  unfold Stream.next
  rw [closes]
  rfl

theorem Stream.received_final (stream : Stream) (config : StreamConfig)
    (closes : chunk.isFinal = true) :
    (stream.next config chunk).received = [] := by
  unfold Stream.next
  rw [closes]
  rfl

theorem sound_initial : ({} : Stream).Sound := ⟨rfl, rfl⟩

theorem sound_next (sound : stream.Sound) (intact : Intact config stream chunk) :
    (stream.next config chunk).Sound := by
  cases closes : chunk.isFinal with
  | false =>
    have processed := @processChunk_open config stream chunk closes
    have received := stream.received_open config closes
    refine ⟨?_, ?_⟩
    · rw [received, ← sound.buffer]
      exact processed.1
    · refine processed.2.trans ?_
      rw [received, sound.flag, trackCodeFence_fenced, ← intact.undivided closes]
      rfl
  | true =>
    have received := stream.received_final config closes
    refine ⟨?_, ?_⟩
    · rw [received]
      unfold Stream.next
      rw [processChunk_final closes]
      rfl
    · rw [received]
      unfold Stream.next
      rw [processChunk_final closes]
      unfold flushFinal StreamAdapter.receive
      dsimp only
      rw [sound.flag, trackCodeFence_fenced, intact.closed closes]
      rfl

theorem streamed_iff (sound : stream.Sound) :
    Streamed config stream chunk <-> Intact config stream chunk := by
  cases closes : chunk.isFinal with
  | false =>
    have processed := @processChunk_open config stream chunk closes
    have received := stream.received_open config closes
    have flag : (stream.next config chunk).adapter.inCodeFence =
        decide ((count fence stream.received + count fence chunk.text) % 2 = 1) := by
      refine processed.2.trans ?_
      rw [sound.flag, trackCodeFence_fenced]
    constructor
    · intro streamed
      refine ⟨fun _ => ?_, fun other => ?_, fun _ due => ?_, fun other => ?_⟩
      · have same := streamed.flag
        rw [flag, received] at same
        unfold fenced at same
        rw [decide_eq_decide] at same
        omega
      · rw [closes] at other
        cases other
      · rcases sound.sends closes due with ⟨sent, sends, preview⟩
        have bounded := streamed.bounded sent (sends ▸ List.mem_singleton_self sent)
        rw [preview] at bounded
        exact (truncateText_fits config _).mp bounded
      · rw [closes] at other
        cases other
    · intro intact
      refine ⟨?_, ?_, fun other => ?_⟩
      · have same := intact.undivided closes
        rw [flag, received]
        unfold fenced
        rw [decide_eq_decide]
        omega
      · intro sent member
        have sends := sound.sent closes sent member
        rw [sends.2]
        exact (truncateText_fits config _).mpr (intact.preview closes sends.1)
      · rw [closes] at other
        cases other
  | true =>
    have received := stream.received_final config closes
    have flag : (stream.next config chunk).adapter.inCodeFence =
        decide ((count fence stream.received + count fence chunk.text) % 2 = 1) := by
      unfold Stream.next
      rw [processChunk_final closes]
      unfold flushFinal StreamAdapter.receive
      dsimp only
      rw [sound.flag, trackCodeFence_fenced]
    have sends : (processChunk config stream.adapter chunk).2 =
        [.final (stream.received ++ chunk.text) stream.adapter.messageId] := by
      rw [processChunk_final closes, ← sound.buffer]
      rfl
    constructor
    · intro streamed
      refine ⟨fun other => ?_, fun _ => ?_, fun other => ?_, fun _ => ?_⟩
      · rw [closes] at other
        cases other
      · have same := streamed.flag
        rw [flag, received] at same
        have even := of_decide_eq_false (p := _ % 2 = 1) same
        omega
      · rw [closes] at other
        cases other
      · exact streamed.bounded _ (sends ▸ List.mem_singleton_self _)
    · intro intact
      refine ⟨?_, ?_, fun _ => ⟨_, sends⟩⟩
      · rw [flag, received, intact.closed closes]
        rfl
      · intro sent member
        rw [sends] at member
        rw [List.mem_singleton.mp member]
        exact intact.whole closes

/-- For every text in every chunking and every timing, what is promised holds after
each chunk exactly if no chunk divides a marker from the text before it, every text
ends with its fences closed and within the limit, and every preview fits. -/
theorem streamed_exactly (config : StreamConfig) (chunks : List StreamChunk) :
    (streaming config).EveryStep (Streamed config) chunks <->
      (streaming config).EveryStep (Intact config) chunks :=
  (streaming config).everyStep_iff_everyStep Stream.Sound sound_initial
    (fun _ _ sound intact => sound_next sound intact) (fun _ _ sound => streamed_iff sound) chunks

/-- A fence whose second and third backtick come with the next chunk. -/
def dividedFence : List StreamChunk :=
  [{ text := [Char.ofNat 96], now := 0, sentAt := 0, answer := none },
    { text := [Char.ofNat 96, Char.ofNat 96], now := 0, sentAt := 0, answer := none }]

theorem flag_wrong_dividedFence : Not ((streaming {}).EveryStep (Streamed {}) dividedFence) := by
  intro every
  have streamed := every [{ text := [Char.ofNat 96], now := 0, sentAt := 0, answer := none }]
    { text := [Char.ofNat 96, Char.ofNat 96], now := 0, sentAt := 0, answer := none } [] rfl
  exact absurd streamed.flag (by decide)

end Messenger
end BreadMind
