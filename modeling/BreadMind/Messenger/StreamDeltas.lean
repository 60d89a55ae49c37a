import BreadMind.Messenger.StreamAdapter

namespace BreadMind
namespace Messenger

open Execution
open Text

/-!
# Adapters which deliver deltas

A web socket and a terminal show one behind the other what is sent to them, so what
they are sent has to make up the text.  Both take their previews from the buffer
which the other platforms use for editing a message.
-/

inductive DeltaAdapter where
  | webSocket
  | cli

namespace DeltaAdapter

def defaultConfig : DeltaAdapter -> StreamConfig
  | webSocket =>
    { minChars := 1, maxChars := 65536, updateIntervalMs := 50, coalesce := false,
      codeFenceAware := false }
  | cli =>
    { minChars := 1, maxChars := 999999, updateIntervalMs := 0, coalesce := false,
      codeFenceAware := false }

/-- What `send_initial` returns. -/
def messageId : DeltaAdapter -> String
  | webSocket => "ws"
  | cli => "cli"

end DeltaAdapter

inductive Emission where
  | callback (event : String) (text : List Char)
  | print (text : List Char) (ending : String)

def Emission.text : Emission -> List Char
  | .callback _ text => text
  | .print text _ => text

/-- `send_initial`, `send_update` and `send_final`, for a channel with a callback. -/
def DeltaAdapter.emit : DeltaAdapter -> Sent -> Emission
  | .webSocket, .initial text => .callback "delta" text
  | .webSocket, .update text _ => .callback "delta" text
  | .webSocket, .final text _ => .callback "done" text
  | .cli, .initial text => .print text ""
  | .cli, .update text _ => .print text ""
  | .cli, .final text _ => .print text "\n"

theorem text_emit (kind : DeltaAdapter) (sent : Sent) : (kind.emit sent).text = sent.text := by
  cases kind <;> cases sent <;> rfl

structure Piece where
  text : List Char
  now : Int
  sentAt : Int

def Piece.chunk (kind : DeltaAdapter) (isFinal : Bool) (piece : Piece) : StreamChunk where
  text := piece.text
  isFinal := isFinal
  now := piece.now
  sentAt := piece.sentAt
  answer := some kind.messageId

def emissions (kind : DeltaAdapter) (config : StreamConfig) (isFinal : Bool) (adapter : StreamAdapter)
    (piece : Piece) : List Emission :=
  (processChunk config adapter (piece.chunk kind isFinal)).2.map kind.emit

/-- The chunks before the final one.  Of earlier texts the adapter still has the time
of the last update and the flag. -/
def delivering (kind : DeltaAdapter) (config : StreamConfig) (lastSendTime : Int)
    (inCodeFence : Bool) : Machine StreamAdapter Piece where
  initial := { lastSendTime := lastSendTime, inCodeFence := inCodeFence }
  step := fun adapter piece => (processChunk config adapter (piece.chunk kind false)).1

def delivered (kind : DeltaAdapter) (config : StreamConfig) (lastSendTime : Int)
    (inCodeFence : Bool) (pieces : List Piece) (last : Piece) : List Emission :=
  let machine := delivering kind config lastSendTime inCodeFence
  machine.outputs (emissions kind config false) pieces ++
    emissions kind config true (machine.after pieces) last

variable (pieces : List Piece)

def joinedText : List Char :=
  pieces.flatMap Piece.text

def emittedText (emitted : List Emission) : List Char :=
  emitted.flatMap Emission.text

/-- No update is due with the piece, or the limit leaves no letter to show. -/
def Withheld (config : StreamConfig) (adapter : StreamAdapter) (piece : Piece) : Prop :=
  adapter.buffer ++ piece.text ≠ [] -> shouldSend config (adapter.receive piece.text) piece.now = true ->
    config.maxChars < (adapter.buffer ++ piece.text).length ∧
      clampEnd (adapter.buffer ++ piece.text).length config.maxChars = 0

/-! ## Previews which are empty -/

variable {kind : DeltaAdapter} {config : StreamConfig} {adapter : StreamAdapter} {piece : Piece}
variable {lastSendTime : Int} {inCodeFence : Bool}

theorem length_cutText_eq_zero (config : StreamConfig) (text : List Char) :
    (cutText config text).length = 0 <-> clampEnd text.length config.maxChars = 0 := by
  unfold cutText
  rw [length_slice]
  rcases findBreakPoint_cases text config.maxChars with same | ⟨place, same, positive, inside⟩
  · rw [same]
  · rw [same, clampEnd_of_le (Nat.le_trans inside (clampEnd_le _ _))]
    omega

theorem truncateText_eq_nil {text : List Char} (some_ : text ≠ []) :
    truncateText config text = [] <->
      config.maxChars < text.length ∧ clampEnd text.length config.maxChars = 0 := by
  unfold truncateText
  by_cases short : (text.length : Int) ≤ config.maxChars
  · rw [if_pos short]
    exact iff_of_false some_ fun both => Int.not_lt.mpr short both.1
  · rw [if_neg short, and_iff_right (Int.not_le.mp short), ← length_cutText_eq_zero config text,
      List.length_eq_zero_iff]
    split
    case isTrue opened =>
      refine iff_of_false ?_ ?_
      · exact List.append_ne_nil_of_right_ne_nil _ (List.cons_ne_nil _ _)
      · intro empty
        rw [empty] at opened
        cases opened
    case isFalse => exact Iff.rfl

theorem emittedText_append (first second : List Emission) :
    emittedText (first ++ second) = emittedText first ++ emittedText second :=
  List.flatMap_append

theorem emissions_empty_iff :
    emittedText (emissions kind config false adapter piece) = [] <-> Withheld config adapter piece := by
  unfold emissions processChunk Withheld
  have received : (adapter.receive (piece.chunk kind false).text).buffer =
      adapter.buffer ++ piece.text := rfl
  have open_ : (piece.chunk kind false).isFinal = false := rfl
  have now : (piece.chunk kind false).now = piece.now := rfl
  have text : (piece.chunk kind false).text = piece.text := rfl
  dsimp only
  rw [open_, if_neg Bool.false_ne_true, now]
  by_cases send : shouldSend config (adapter.receive piece.text) piece.now = true
  · rw [text, if_pos send]
    unfold flushUpdate
    rw [← text, received]
    by_cases empty : adapter.buffer ++ piece.text = []
    · rw [if_pos (List.isEmpty_iff.mpr empty)]
      exact iff_of_true rfl fun some_ => absurd empty some_
    · rw [if_neg fun isEmpty => empty (List.isEmpty_iff.mp isEmpty)]
      have shown : ∀ sent : Sent,
          sent.text = truncateText config (adapter.buffer ++ piece.text) ->
            (emittedText ([sent].map kind.emit) = [] <->
              config.maxChars < (adapter.buffer ++ piece.text).length ∧
                clampEnd (adapter.buffer ++ piece.text).length config.maxChars = 0) := by
        intro sent preview
        unfold emittedText
        rw [List.map_singleton, List.flatMap_singleton, text_emit, preview]
        exact truncateText_eq_nil empty
      dsimp only
      split
      · exact (shown _ rfl).trans ⟨fun both _ _ => both, fun all => all empty send⟩
      · exact (shown _ rfl).trans ⟨fun both _ _ => both, fun all => all empty send⟩
  · rw [text, if_neg send]
    exact iff_of_true rfl fun _ sent => absurd sent send

theorem buffer_after :
    ((delivering kind config lastSendTime inCodeFence).after pieces).buffer = joinedText pieces := by
  induction pieces using List.reverseRecOn with
  | nil => rfl
  | append_singleton earlier piece ih =>
    rw [Machine.after_append_singleton]
    have processed := @processChunk_open config
      ⟨(delivering kind config lastSendTime inCodeFence).after earlier, []⟩
      (piece.chunk kind false) rfl
    refine processed.1.trans ?_
    unfold joinedText
    rw [List.flatMap_append, List.flatMap_singleton]
    exact congrArg (fun text => text ++ piece.text) ih

theorem outputs_empty_iff : emittedText ((delivering kind config lastSendTime inCodeFence).outputs
        (emissions kind config false) pieces) = [] <->
      (delivering kind config lastSendTime inCodeFence).EveryStep (Withheld config) pieces := by
  induction pieces using List.reverseRecOn with
  | nil => exact iff_of_true rfl (Machine.everyStep_nil _ _)
  | append_singleton earlier piece ih =>
    rw [Machine.outputs_append_singleton, emittedText_append, List.append_eq_nil_iff,
      Machine.everyStep_append_singleton, ih, emissions_empty_iff]

theorem emissions_final (last : Piece) : emittedText (emissions kind config true
        ((delivering kind config lastSendTime inCodeFence).after pieces) last) =
      joinedText pieces ++ last.text := by
  have closes := @processChunk_final config
    ⟨(delivering kind config lastSendTime inCodeFence).after pieces, []⟩ (last.chunk kind true) rfl
  unfold emissions
  rw [closes]
  unfold flushFinal emittedText
  dsimp only
  rw [List.map_singleton, List.flatMap_singleton, text_emit]
  exact congrArg (fun text => text ++ last.text) (buffer_after pieces)

/-- For either adapter, every text in every chunking and every timing, what is emitted
makes up the text exactly if nothing is shown before the final chunk. -/
theorem delivered_exactly (kind : DeltaAdapter) (config : StreamConfig) (lastSendTime : Int)
    (inCodeFence : Bool) (pieces : List Piece) (last : Piece) :
    emittedText (delivered kind config lastSendTime inCodeFence pieces last) =
        joinedText pieces ++ last.text <->
      (delivering kind config lastSendTime inCodeFence).EveryStep (Withheld config) pieces := by
  unfold delivered
  dsimp only
  rw [emittedText_append, emissions_final, List.append_left_eq_self, outputs_empty_iff]

/-- Two words of an answer, the second of them a second after the first. -/
theorem words_repeated :
    Not (emittedText (delivered .webSocket (DeltaAdapter.defaultConfig .webSocket) 0 false
        [⟨"one ".toList, 1000000, 1000000⟩] ⟨"two".toList, 2000000, 2000000⟩) =
      joinedText [⟨"one ".toList, 1000000, 1000000⟩] ++ "two".toList) := by
  decide

end Messenger
end BreadMind
