import LogMetrics.Base.Machine
import LogMetrics.Logger.Logger
import LogMetrics.TestApplication.CommandParser
import LogMetrics.TestApplication.ThreadSafeQueue

/-!
# `TestApplication`

`src/test_application/test_application.cpp`: the thread that reads lines and
the worker that logs. `run` is called once and the object destroyed behind it.
One step is a locked part of a queue method, an access to `is_running_`, or a
piece of code that touches nothing shared; only the worker uses the logger, so
its calls are one step each. The sink of the logger is a parameter: a file, or
a socket.

The `k`-th record the worker formats carries the timestamp `timestamps k`.
What the main thread prints (welcome text, prompt, help) is in `Console`.
-/

set_option linter.dupNamespace false

namespace LogMetrics.TestApplication

open LogMetrics.Base
open LogMetrics.Logger (LogLevel ILogSink)

/-- `LogEntry`. -/
structure LogEntry where
  message : Bytes
  level : LogLevel
  deriving DecidableEq, Repr

/-- Where the main thread is; `final` tells `stop` in the destructor from
`stop` in `process_command`. -/
inductive MainPc where
  | storeRunning
  | spawn
  | loop
  | getline
  | push (entry : LogEntry)
  | prompt
  | stopLoad (final : Bool)
  | stopStore (final : Bool)
  | stopQueue (final : Bool)
  | join (final : Bool)
  | ended
  deriving DecidableEq, Repr

/-- Where the worker is; `drain` tells its second loop from its first. -/
inductive WorkerPc where
  | notStarted
  | load
  | pop (drain : Bool)
  | isValid (entry : LogEntry) (drain : Bool)
  | log (entry : LogEntry) (drain : Bool)
  | done
  deriving DecidableEq, Repr

/-- `TestApplication`, the input it reads, and its two threads. -/
structure TestApplication (σ : Type) where
  defaultLevel : LogLevel
  isRunning : Bool
  logQueue : ThreadSafeQueue LogEntry Unit
  logger : Logger.Logger σ
  formatted : Nat
  input : List Bytes
  main : MainPc
  worker : WorkerPc

/-- `main` with the choice of `notify_one`, `worker`, or a spurious wakeup of
the worker. -/
inductive AppAction where
  | main (notified : Option Unit)
  | worker
  | wake
  deriving DecidableEq, Repr

namespace TestApplication

variable {σ : Type}

/-- Behind `stop`. -/
def afterStop (final : Bool) : MainPc := if final then .ended else .prompt

/-- Behind the body of a loop of the worker. -/
def afterEntry (drain : Bool) : WorkerPc := if drain then .pop true else .load

/-- `process_command`, up to its first shared access. -/
def processCommand (defaultLevel : LogLevel) (command : ParsedCommand) : MainPc :=
  match command.type with
  | .logMessage => .push ⟨command.message, command.level.getD defaultLevel⟩
  | .help => .prompt
  | .exit => .stopLoad false

/-- One step of the main thread: `run`, then the destructor. -/
def stepMain (s : TestApplication σ) (notified : Option Unit) : Option (TestApplication σ) :=
  match s.main with
  | .storeRunning => some { s with isRunning := true, main := .spawn }
  | .spawn => some { s with worker := .load, main := .loop }
  | .loop =>
    if s.isRunning then some { s with main := .getline } else some { s with main := .stopLoad true }
  | .getline =>
    match s.input with
    | [] => some { s with main := .stopLoad true }
    | line :: input =>
      match parseCommand line with
      | none => some { s with input, main := .prompt }
      | some command => some { s with input, main := processCommand s.defaultLevel command }
  | .push entry =>
    match s.logQueue.push entry notified with
    | none => none
    | some logQueue => some { s with logQueue, main := .prompt }
  | .prompt => some { s with main := .loop }
  | .stopLoad final =>
    if s.isRunning then some { s with main := .stopStore final }
    else some { s with main := afterStop final }
  | .stopStore final => some { s with isRunning := false, main := .stopQueue final }
  | .stopQueue final => some { s with logQueue := s.logQueue.stop, main := .join final }
  | .join final =>
    match s.worker with
    | .done => some { s with main := afterStop final }
    | _ => none
  | .ended => none

/-- One step of the worker; `timestamp` is what `get_current_timestamp`
returns if it logs. -/
def stepWorker [ILogSink σ] (timestamp : Bytes) (s : TestApplication σ) :
    Option (TestApplication σ) :=
  match s.worker with
  | .notStarted => none
  | .load =>
    if s.isRunning then some { s with worker := .pop false } else some { s with worker := .pop true }
  | .pop drain =>
    if () ∈ s.logQueue.asleep then none
    else
      match s.logQueue.pop () with
      | (.sleeps, logQueue) => some { s with logQueue }
      | (.item entry, logQueue) => some { s with logQueue, worker := .isValid entry drain }
      | (.stopped, logQueue) => some { s with logQueue, worker := if drain then .done else .load }
  | .isValid entry drain =>
    if s.logger.isValid then some { s with worker := .log entry drain }
    else some { s with worker := afterEntry drain }
  | .log entry drain =>
    some { s with
      logger := s.logger.log timestamp entry.message entry.level
      formatted :=
        if Logger.Logger.isBelow entry.level s.logger.defaultLevel || !s.logger.isValid
        then s.formatted else s.formatted + 1
      worker := afterEntry drain }
  | .done => none

def step [ILogSink σ] (timestamps : Nat → Bytes) (s : TestApplication σ) :
    AppAction → Option (TestApplication σ)
  | .main notified => s.stepMain notified
  | .worker => s.stepWorker (timestamps s.formatted)
  | .wake =>
    match s.logQueue.wake () with
    | none => none
    | some logQueue => some { s with logQueue }

/-- The constructor; `input` is what `run` will read. -/
def construct (logger : Logger.Logger σ) (defaultLevel : LogLevel) (input : List Bytes) :
    TestApplication σ where
  defaultLevel := defaultLevel
  isRunning := false
  logQueue := {}
  logger := logger
  formatted := 0
  input := input
  main := .storeRunning
  worker := .notStarted

/-- What `create_application` returns for a sink that is valid, before `run`. -/
def created (defaultLevel : LogLevel) (sink : σ) (input : List Bytes) : TestApplication σ :=
  construct { sinks := [sink], defaultLevel } defaultLevel input

end TestApplication

/-- The two threads as a machine. -/
def appMachine {σ : Type} [ILogSink σ] (timestamps : Nat → Bytes) :
    Machine (TestApplication σ) AppAction Empty where
  step s a := (s.step timestamps a).map (·, [])

end LogMetrics.TestApplication
