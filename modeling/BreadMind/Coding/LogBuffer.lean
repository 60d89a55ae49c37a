import BreadMind.Base.Values
import BreadMind.Execution.Bags
import BreadMind.Execution.Dict

namespace BreadMind
namespace Coding

open Execution

/-!
# The log buffer

The lines of a phase get their numbers from a counter.  An append then waits for
the database writer, if that has something to do, and hands the line to the
buffer.  A worker takes the buffered lines phase by phase and has them flushed.

The appends, the writer and the workers are tasks of one event loop, so nothing
comes in between where none of them awaits.  Time is left open: a wait for a
signal may end at any moment, and any phase may have become old.  Next to the
state stands what has been numbered, appended, handed over and dropped so far.
-/

structure PhaseKey where
  job : String
  step : Int
  deriving DecidableEq

structure LogLine where
  job : String
  step : Int
  lineNo : Nat
  text : String
  deriving DecidableEq

def LogLine.key (line : LogLine) : PhaseKey := { job := line.job, step := line.step }

structure LogConfig where
  sizeThreshold : Int := 50
  perPhaseCap : Int := 5000

/-- Where a worker is: not begun, waiting, or awaiting the flushes of a drain, of
which some have not started yet. -/
inductive Worker where
  | created
  | looping
  | flushing (unhanded : List (List LogLine)) (last : Bool)

def Worker.unhanded : Worker -> List LogLine
  | .flushing payloads _ => payloads.flatten
  | _ => []

def Worker.drainsAgain : Worker -> Bool
  | .flushing _ last => !last
  | _ => true

structure WorkerTask where
  name : Nat
  worker : Worker

/-- A call of `stop` that awaits a worker, and what was appended before it. -/
structure StopCall where
  task : Nat
  before : List LogLine

structure LogStreaming where
  counters : PhaseKey -> Nat := fun _ => 0
  /-- The unfinished tasks of the database writer. -/
  unfinished : Nat := 0
  waiters : List LogLine := []
  /-- The appends whose wait is over, in the order in which they go on. -/
  woken : List LogLine := []
  buffers : Dict PhaseKey (List LogLine) := []
  forced : List PhaseKey := []
  /-- The drops as they are counted. -/
  counted : Int := 0
  flushFailed : Nat := 0
  stopSet : Bool := false
  tasks : List WorkerTask := []
  nextName : Nat := 0
  handle : Option Nat := none
  stops : List StopCall := []
  numbered : List LogLine := []
  appended : List LogLine := []
  handed : List LogLine := []
  dropped : List LogLine := []
  /-- What was appended before each call of `stop` that has returned. -/
  returned : List (List LogLine) := []

namespace LogStreaming

variable (config : LogConfig) (state : LogStreaming)

def bufferOf (key : PhaseKey) : List LogLine := (state.buffers.lookup key).getD []

/-- What workers have taken out of the buffers and not handed over yet. -/
def inFlight : List LogLine := state.tasks.flatMap fun task => task.worker.unhanded

def keep (line : LogLine) : LogStreaming :=
  let buffer := state.bufferOf line.key ++ [line]
  let excess := (buffer.length : Int) - config.perPhaseCap
  { state with
    buffers := state.buffers.set line.key (buffer.drop excess.toNat)
    dropped := state.dropped ++ buffer.take excess.toNat
    counted := state.counted + max excess 0
    appended := state.appended ++ [line] }

variable (aged : PhaseKey -> Bool)

def due (entry : PhaseKey × List LogLine) : Bool :=
  !entry.2.isEmpty && (state.stopSet || aged entry.1 ||
    decide (config.sizeThreshold ≤ entry.2.length) || state.forced.contains entry.1)

def payloads : List (List LogLine) :=
  (state.buffers.filter (state.due config aged)).map Prod.snd

def drained : LogStreaming :=
  { state with
    buffers := state.buffers.map fun entry =>
      if state.due config aged entry then (entry.1, []) else entry
    forced := state.forced.filter fun key =>
      !((state.buffers.filter (state.due config aged)).map Prod.fst).contains key }

variable (index : Nat)

def setWorker (worker : Worker) : LogStreaming :=
  { state with tasks := state.tasks.modify index fun task => { task with worker } }

def endWorker : LogStreaming :=
  { state with tasks := state.tasks.eraseIdx index }

def lastDrain : LogStreaming :=
  if (state.payloads config aged).isEmpty then (state.drained config aged).endWorker index
  else (state.drained config aged).setWorker index (.flushing (state.payloads config aged) true)

def loopTop : LogStreaming :=
  if state.stopSet then state.lastDrain config aged index else state.setWorker index .looping

def wake : LogStreaming :=
  if (state.payloads config aged).isEmpty then (state.drained config aged).loopTop config aged index
  else (state.drained config aged).setWorker index (.flushing (state.payloads config aged) false)

/-- A payload is handed to `flush_fn`, whose exception is counted and absorbed. -/
def hand (payload : List LogLine) (rest : List (List LogLine)) (last : Bool)
    (outcome : Option PyError) : LogStreaming :=
  { state.setWorker index (.flushing rest last) with
    handed := state.handed ++ payload
    flushFailed := if outcome.isSome then state.flushFailed + payload.length
      else state.flushFailed }

def run (index : Nat) (aged : PhaseKey -> Bool) (outcome : Option PyError) : LogStreaming :=
  match (state.tasks[index]?).map WorkerTask.worker with
  | none => state
  | some .created => state.loopTop config aged index
  | some .looping => state.wake config aged index
  | some (.flushing (payload :: rest) last) => state.hand index payload rest last outcome
  | some (.flushing [] true) => state.endWorker index
  | some (.flushing [] false) => state.loopTop config aged index

/-! ## The other tasks -/

/-- `JobLogStream.append`, up to where it waits for the writer. -/
def append (job : String) (step : Int) (text : String) : LogStreaming :=
  let key : PhaseKey := { job, step }
  let line : LogLine := { job, step, lineNo := state.counters key + 1, text }
  let counted : LogStreaming :=
    { state with
      counters := Function.update state.counters key (state.counters key + 1)
      numbered := state.numbered ++ [line] }
  if state.unfinished = 0 then counted.keep config line
  else { counted with waiters := state.waiters ++ [line] }

def resume : LogStreaming :=
  match state.woken with
  | [] => state
  | line :: rest => { state with woken := rest }.keep config line

/-- The last task of the writer wakes everyone who waits for it. -/
def taskDone : LogStreaming :=
  if state.unfinished = 1 then
    { state with unfinished := 0, waiters := [], woken := state.woken ++ state.waiters }
  else { state with unfinished := state.unfinished - 1 }

def evict (job : String) : LogStreaming :=
  { state with counters := fun key => if key.job = job then 0 else state.counters key }

/-- The worker that the buffer knows of has not come to its end. -/
def started : Bool :=
  match state.handle with
  | none => false
  | some name => state.tasks.any fun task => task.name == name

def start : LogStreaming :=
  if state.started then state
  else
    { state with
      stopSet := false
      tasks := state.tasks ++ [{ name := state.nextName, worker := .created }]
      handle := some state.nextName
      nextName := state.nextName + 1 }

/-- `stop`, up to where it awaits the worker. -/
def stop : LogStreaming :=
  match state.handle with
  | none => { state with stopSet := true, returned := state.returned ++ [state.appended] }
  | some name =>
    { state with
      stopSet := true
      stops := state.stops ++ [{ task := name, before := state.appended }] }

def stopReturns : LogStreaming :=
  match state.stops[index]? with
  | none => state
  | some call =>
    if state.tasks.any fun task => task.name == call.task then state
    else
      { state with
        handle := none
        stops := state.stops.eraseIdx index
        returned := state.returned ++ [call.before] }

/-- What the tasks of the loop can do. -/
inductive Input where
  | append (job : String) (step : Int) (text : String)
  | resume
  | cancel (line : LogLine)
  | resetPhase (key : PhaseKey)
  | evictJob (job : String)
  | schedule
  | taskDone
  | forceFlush (key : PhaseKey)
  | start
  | run (index : Nat) (aged : PhaseKey -> Bool) (outcome : Option PyError)
  | stop
  | stopReturns (index : Nat)

def next : Input -> LogStreaming
  | .append job step text => state.append config job step text
  | .resume => state.resume config
  | .cancel line =>
    { state with waiters := state.waiters.erase line, woken := state.woken.erase line }
  | .resetPhase key => { state with counters := Function.update state.counters key 0 }
  | .evictJob job => state.evict job
  | .schedule => { state with unfinished := state.unfinished + 1 }
  | .taskDone => state.taskDone
  | .forceFlush key => { state with forced := key :: state.forced }
  | .start => state.start
  | .run index aged outcome => state.run config index aged outcome
  | .stop => state.stop
  | .stopReturns index => state.stopReturns index

end LogStreaming

end Coding
end BreadMind
