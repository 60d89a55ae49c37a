import BreadMind.Base.Values
import BreadMind.Execution.Bags
import BreadMind.Execution.Machine
import BreadMind.Mcp.Framing

namespace BreadMind
namespace Mcp

open Execution

/-!
# Calls on one stdio server

Every request to a server is written to one stream, and every call reads its
response from the other stream.  A call waits while its request drains, and then
at each read; it may give up at any of these points, because of its timeout, an
exception of the stream or a cancellation.  Tool calls are limited by a
semaphore; health checks, resources, prompts and the start of the server read
without it.  The ids come from one counter, which requests to other servers
advance as well.

The server answers each request once, in any order and after any delay, with a
well-framed message whose id is that of the request.  How a body is read as JSON
is left open.
-/

inductive McpRequest where
  | initializeRequest
  | toolsList
  | toolsCall (name : String) (arguments : Json)
  | resourcesList
  | resourcesRead (uri : String)
  | promptsList
  | promptsGet (name : String) (arguments : Option Json)
  | loggingSetLevel (level : String)

/-- The calls which `call_tool` makes under the semaphore. -/
def McpRequest.limited : McpRequest -> Bool
  | toolsCall _ _ => true
  | _ => false

structure McpResponse where
  id : Option Nat
  error : Option (Int × String) := none
  result : Option Json := none

def parseResponse (response : McpResponse) : Except (Int × String) (Option Json) :=
  match response.error with
  | some error => .error error
  | none => .ok response.result

/-- A call with the id of its request; it does not read before the request has drained. -/
structure Call where
  id : Nat
  request : McpRequest
  reading : Option Reading := none

/-- What a call gave its caller, with the id of its request and the response it
came from. -/
structure Returned where
  id : Nat
  value : Except (Int × String) (Option Json)
  response : McpResponse

/-- `returned` lists the calls that got a response; it is kept beside the code. -/
structure Stdio where
  counter : Nat := 1
  unanswered : List Nat := []
  coming : List Char := []
  buffer : List Char := []
  calls : List Call := []
  returned : List Returned := []

inductive StdioInput where
  | call (request : McpRequest)
  | elsewhere
  | drained (index : Nat)
  | answer (index : Nat) (lines : List (List Char)) (body : List Char)
  | arrive (count : Nat)
  | read (index : Nat)
  | leave (index : Nat)

namespace Stdio

variable (loads : List Char -> Option McpResponse) (maxConcurrent : Nat)

/-- A request with the next id is written; at the limit a tool call waits. -/
def call (stdio : Stdio) (request : McpRequest) : Stdio :=
  if request.limited = true ∧
      maxConcurrent ≤ (stdio.calls.filter fun call => call.request.limited).length then stdio
  else
    { stdio with
      counter := stdio.counter + 1
      unanswered := stdio.unanswered ++ [stdio.counter]
      calls := stdio.calls ++ [{ id := stdio.counter, request := request }] }

def drained (stdio : Stdio) (index : Nat) : Stdio :=
  match stdio.calls[index]? with
  | some call =>
    if call.reading = none then
      { stdio with calls := stdio.calls.set index { call with reading := some (.header []) } }
    else stdio
  | none => stdio

/-- The message with these lines and this body answers the request with the id. -/
def Answers (id : Nat) (lines : List (List Char)) (body : List Char) : Prop :=
  WellFramed lines body ∧ (loads body).bind McpResponse.id = some id

instance (id : Nat) (lines : List (List Char)) (body : List Char) :
    Decidable (Answers loads id lines body) :=
  inferInstanceAs (Decidable (_ ∧ _))

def answer (stdio : Stdio) (index : Nat) (lines : List (List Char)) (body : List Char) : Stdio :=
  match stdio.unanswered[index]? with
  | some id =>
    if Answers loads id lines body then
      { stdio with
        unanswered := stdio.unanswered.eraseIdx index
        coming := stdio.coming ++ (lines.flatten ++ body) }
    else stdio
  | none => stdio

def arrive (stdio : Stdio) (count : Nat) : Stdio :=
  { stdio with
    coming := stdio.coming.drop count, buffer := stdio.buffer ++ stdio.coming.take count }

def finish (stdio : Stdio) (index : Nat) (call : Call) (response : Option McpResponse) : Stdio :=
  { stdio with
    calls := stdio.calls.eraseIdx index
    returned := stdio.returned ++ response.toList.map fun response =>
      { id := call.id, value := parseResponse response, response := response } }

def read (stdio : Stdio) (index : Nat) : Stdio :=
  match stdio.calls[index]? with
  | some call =>
    match call.reading with
    | none => stdio
    | some reading =>
      match reading.advance stdio.buffer with
      | .waiting => stdio
      | .failed rest => { stdio with buffer := rest }.finish index call none
      | .goOn next rest =>
        { stdio with
          buffer := rest, calls := stdio.calls.set index { call with reading := some next } }
      | .message body rest => { stdio with buffer := rest }.finish index call (loads body)
  | none => stdio

def step (stdio : Stdio) : StdioInput -> Stdio
  | .call request => stdio.call maxConcurrent request
  | .elsewhere => { stdio with counter := stdio.counter + 1 }
  | .drained index => stdio.drained index
  | .answer index lines body => stdio.answer loads index lines body
  | .arrive count => stdio.arrive count
  | .read index => stdio.read loads index
  | .leave index => { stdio with calls := stdio.calls.eraseIdx index }

def machine : Machine Stdio StdioInput where
  initial := {}
  step := step loads maxConcurrent

/-- Every returned value came from the response to the request of its call. -/
def Correlated (stdio : Stdio) : Prop :=
  ∀ entry ∈ stdio.returned,
    entry.value = parseResponse entry.response ∧ entry.response.id = some entry.id

/-- A request is sent only when no call is waiting, every earlier request has
been answered, and no byte of an answer is left in the stream. -/
def SentAlone (stdio : Stdio) : StdioInput -> Prop
  | .call _ => stdio.calls = [] ∧ stdio.unanswered = [] ∧ stdio.coming = [] ∧ stdio.buffer = []
  | _ => True

/-! ## One call at a time -/

/-- The stream holds nothing, or exactly what is left of the answer to the call. -/
def Serves (stdio : Stdio) (call : Call) : Prop :=
  (stdio.unanswered = [call.id] ∧ stdio.coming = [] ∧ stdio.buffer = [] ∧
      call.reading.getD (.header []) = .header []) ∨
    (stdio.unanswered = [] ∧ ∃ body, (loads body).bind McpResponse.id = some call.id ∧
      Expects body (call.reading.getD (.header [])) (stdio.buffer ++ stdio.coming))

structure Single (stdio : Stdio) : Prop where
  correlated : Correlated stdio
  serves : AtMostOne (Serves loads stdio) stdio.calls

variable {loads maxConcurrent} {stdio : Stdio}

theorem single_call (single : Single loads stdio) (request : McpRequest)
    (alone : SentAlone stdio (.call request)) :
    Single loads (stdio.call maxConcurrent request) := by
  rcases alone with ⟨calls, unanswered, coming, buffer⟩
  unfold call
  split
  · exact single
  · refine ⟨single.correlated, ?_⟩
    simp only [calls, unanswered, List.nil_append]
    exact atMostOne_one (.inl ⟨rfl, coming, buffer, rfl⟩)

theorem single_drained (single : Single loads stdio) (index : Nat) :
    Single loads (stdio.drained index) := by
  unfold drained
  cases here : stdio.calls[index]? with
  | none => exact single
  | some call =>
    simp only
    split
    case isFalse => exact single
    case isTrue undrained =>
      have serves := single.serves.get here
      unfold Serves at serves
      rw [undrained] at serves
      exact ⟨single.correlated, single.serves.set here serves⟩

theorem single_answer (single : Single loads stdio) (index : Nat) (lines : List (List Char))
    (body : List Char) : Single loads (stdio.answer loads index lines body) := by
  unfold answer
  cases here : stdio.unanswered[index]? with
  | none => exact single
  | some id =>
    simp only
    split
    case isFalse => exact single
    case isTrue answers =>
      refine ⟨single.correlated, single.serves.mono ?_⟩
      rintro call (⟨unanswered, coming, buffer, fresh⟩ | ⟨answered, _⟩)
      · rw [unanswered] at here
        cases index with
        | succ more => cases here
        | zero =>
          cases here
          refine .inr ⟨?_, body, answers.2, ?_⟩
          · simp only [unanswered]
            rfl
          · simp only [fresh, coming, buffer, List.nil_append]
            exact expects_fresh answers.1
      · rw [answered] at here
        cases here

theorem single_arrive (single : Single loads stdio) (count : Nat) :
    Single loads (stdio.arrive count) := by
  refine ⟨single.correlated, single.serves.mono ?_⟩
  rintro call (⟨unanswered, coming, buffer, fresh⟩ | ⟨answered, body, own, expects⟩)
  · refine .inl ⟨unanswered, ?_, ?_, fresh⟩
    · simp only [arrive, coming, List.drop_nil]
    · simp only [arrive, coming, buffer, List.take_nil, List.append_nil]
  · refine .inr ⟨answered, body, own, ?_⟩
    simp only [arrive, List.append_assoc, List.take_append_drop]
    exact expects

theorem single_finish (single : Single loads stdio) {index : Nat} {call : Call}
    (here : stdio.calls[index]? = some call) (buffer : List Char) {response : Option McpResponse}
    (own : ∀ value, response = some value -> value.id = some call.id) :
    Single loads ({ stdio with buffer := buffer }.finish index call response) := by
  constructor
  · intro entry member
    rcases List.mem_append.mp member with old | new
    · exact single.correlated entry old
    · rcases List.mem_map.mp new with ⟨value, there, same⟩
      rw [← same]
      exact ⟨rfl, own value (Option.mem_toList.mp there)⟩
  · exact .inl (single.serves.eraseIdx_eq_nil here)

theorem single_read (single : Single loads stdio) (index : Nat) :
    Single loads (stdio.read loads index) := by
  unfold read
  cases here : stdio.calls[index]? with
  | none => exact single
  | some call =>
    simp only
    cases started : call.reading with
    | none => exact single
    | some reading =>
      simp only
      rcases single.serves.get here with ⟨_, _, buffer, fresh⟩ | ⟨answered, body, own, expects⟩
      · -- Nothing has come yet.
        rw [started] at fresh
        cases fresh
        rw [buffer]
        exact single
      · rw [started, Option.getD_some] at expects
        rcases advance_expects expects with
          waits | ⟨next, rest, goes, still⟩ | ⟨message, nothing⟩
        · rw [waits]
          exact single
        · rw [goes]
          exact ⟨single.correlated, single.serves.set here (.inr ⟨answered, body, own, still⟩)⟩
        · rw [message]
          refine single_finish single here [] ?_
          intro value decoded
          rw [decoded] at own
          exact own

theorem single_step (single : Single loads stdio) (input : StdioInput)
    (alone : SentAlone stdio input) : Single loads (stdio.step loads maxConcurrent input) := by
  cases input with
  | call request => exact single_call single request alone
  | elsewhere => exact ⟨single.correlated, single.serves⟩
  | drained index => exact single_drained single index
  | answer index lines body => exact single_answer single index lines body
  | arrive count => exact single_arrive single count
  | read index => exact single_read single index
  | leave index => exact ⟨single.correlated, single.serves.eraseIdx index⟩

/-- In every run whose requests are sent one at a time, into an empty stream,
every call returns the response to its own request. -/
theorem responses_correlated (loads : List Char -> Option McpResponse) (maxConcurrent : Nat)
    (inputs : List StdioInput) (alone : (machine loads maxConcurrent).EveryStep SentAlone inputs) :
    (machine loads maxConcurrent).EveryState Correlated inputs := by
  have nothing : Single loads {} :=
    ⟨fun _ member => (List.not_mem_nil member).elim, atMostOne_nil⟩
  have single := (machine loads maxConcurrent).guarded_everyState (Single loads) SentAlone nothing
    (fun _ input single alone => single_step single input alone) inputs alone
  intro before rest split
  exact (single before rest split).correlated

def shortLoads (body : List Char) : Option McpResponse :=
  if body = ['1'] then some { id := some 1, result := some (.str "tools") }
  else if body = ['2'] then some { id := some 2, result := some (.str "text") }
  else none

def oneByOne : List StdioInput :=
  [.call .toolsList, .drained 0, .answer 0 (headerLines 1) ['1'], .arrive 20, .read 0, .arrive 2,
    .read 0, .read 0, .call (.toolsCall "read" (.obj [])), .drained 0,
    .answer 0 (headerLines 1) ['2'], .arrive 22, .read 0, .read 0, .read 0]

theorem responses_oneByOne : (machine shortLoads 5).EveryState Correlated oneByOne := by
  refine responses_correlated shortLoads 5 oneByOne ?_
  rw [Machine.everyStep_iff_stepsFrom]
  refine ⟨⟨rfl, rfl, rfl, rfl⟩, trivial, trivial, trivial, trivial, trivial, trivial, trivial,
    ⟨rfl, rfl, rfl, rfl⟩, trivial, trivial, trivial, trivial, trivial, trivial, trivial⟩

def lateResponse : List StdioInput :=
  [.call .toolsList, .drained 0, .leave 0, .answer 0 (headerLines 1) ['1'], .arrive 22,
    .call (.toolsCall "read" (.obj [])), .drained 0, .read 0, .read 0, .read 0]

theorem late_response_returned :
    Not (∀ (loads : List Char -> Option McpResponse) (maxConcurrent : Nat)
      (inputs : List StdioInput), (machine loads maxConcurrent).EveryState Correlated inputs) := by
  intro claim
  have correlated := claim shortLoads 5 lateResponse lateResponse [] (List.append_nil _).symm
  have late := (correlated
    { id := 2, value := .ok (some (.str "tools"))
      response := { id := some 1, result := some (.str "tools") } } (List.mem_singleton_self _)).2
  exact absurd late (by decide)

end Stdio

end Mcp
end BreadMind
