import LogMetrics.MetricsApplication.MetricsCollector
import LogMetrics.MetricsApplication.Utility

/-!
# `MessageProcessor`

`src/metrics_application/message_processor.cpp`. The receiver's
`process_message` and one iteration of `stats_timer_thread`, each as one
piece of straight-line code; every reading of `steady_clock` is an argument.
`ProcessorThreads` runs the two against each other.

`stats_callback_` is only ever tested and called, and it has no access to the
collector, so all of it that matters is whether it is set. What the program
makes observable, and the writes the laws about it speak of, are
`ProcessorEvent`s.

Main results: a payload either parser rejects leaves the processor as it was
(`processMessage_rejected`), and one that both accept is added with its parsed
text and level (`processMessage_accepted`).
-/

namespace LogMetrics.MetricsApplication

open LogMetrics.Logger (LogLevel)
open MetricsCollector

/-- `MessageProcessor`. -/
structure MessageProcessor where
  messageInterval : Nat
  timeoutSeconds : Int
  metricsCollector : MessageStats
  lastStatsPrintTime : TimePoint
  running : Bool
  statsCallback : Bool

/-- Statistics are put out by a call of `stats_callback_` or printed. -/
inductive Output where
  | callback
  | printed (report : StatsReport)

/-- The two threads. What the receiver puts out is triggered by the number of
messages, what the timer puts out by the timeout. -/
inductive Thread where
  | receiver
  | timer
  deriving DecidableEq, Repr

inductive ProcessorEvent where
  | log (logMessage : Bytes)
  | parseError (text : Bytes)
  | added (message : Bytes) (level : LogLevel)
  | emitted (thread : Thread) (output : Output)
  | lastWritten (thread : Thread) (time : TimePoint)

/-- What the two parsers make of a payload, in the order `process_message`
asks them: the text of the error, or the message and its level. -/
def parsePayload (logMessage : Bytes) : Except Bytes (Bytes × LogLevel) :=
  match parseMessageFromLog logMessage with
  | none => .error (ascii "Error parsing message from log")
  | some message =>
    match parseLevelFromLog logMessage with
    | none => .error (ascii "Error parsing level from log")
    | some level => .ok (message, level)

/-- The clock readings of one `process_message`: in `add_message`, at the
reset of the timer, in `print_stats`, and behind it. -/
structure Readings where
  added : TimePoint
  reset : TimePoint
  printed : TimePoint
  finished : TimePoint

namespace MessageProcessor

/-- The constructor. -/
def create (messageInterval : Nat) (timeoutSeconds : Int) (now : TimePoint) : MessageProcessor where
  messageInterval := messageInterval
  timeoutSeconds := timeoutSeconds
  metricsCollector := {}
  lastStatsPrintTime := now
  running := false
  statsCallback := false

/-- `set_stats_callback`. -/
def setStatsCallback (p : MessageProcessor) (callback : Bool) : MessageProcessor :=
  { p with statsCallback := callback }

/-- `start`. -/
def start (p : MessageProcessor) (now : TimePoint) : MessageProcessor :=
  if p.running then p else { p with running := true, lastStatsPrintTime := now }

/-- A processor behind `set_stats_callback` and `start`. -/
def started (messageInterval : Nat) (timeoutSeconds : Int) (statsCallback : Bool)
    (created now : TimePoint) : MessageProcessor :=
  ((create messageInterval timeoutSeconds created).setStatsCallback statsCallback).start now

/-- `stop`, up to the join. -/
def stop (p : MessageProcessor) : MessageProcessor :=
  if not p.running then p else { p with running := false }

/-- `if (stats_callback_) stats_callback_(); else print_stats();`. -/
def putStats (p : MessageProcessor) (now : TimePoint) : Output × MessageProcessor :=
  if p.statsCallback then (.callback, p)
  else
    let (report, stats) := printStats now p.metricsCollector
    (.printed report, { p with metricsCollector := stats })

/-- The end of an accepted `process_message`: the test on the message count
and what follows from it. -/
def checkCount (p : MessageProcessor) (clock : Readings) :
    MessageProcessor × List ProcessorEvent :=
  if shouldPrintStats p.messageInterval p.metricsCollector then
    let (output, p) := p.putStats clock.printed
    ({ p with lastStatsPrintTime := clock.finished },
      [.emitted .receiver output, .lastWritten .receiver clock.finished])
  else (p, [])

/-- `process_message`. -/
def processMessage (p : MessageProcessor) (logMessage : Bytes) (clock : Readings) :
    MessageProcessor × List ProcessorEvent :=
  match parsePayload logMessage with
  | .error text => (p, [.log logMessage, .parseError text])
  | .ok (message, level) =>
    let p := { p with
      metricsCollector := addMessage message level clock.added p.metricsCollector
      lastStatsPrintTime := clock.reset }
    let (p, events) := p.checkCount clock
    (p, [.log logMessage, .added message level, .lastWritten .receiver clock.reset] ++ events)

/-- `time_since_last_print`: whole seconds, rounded toward zero. -/
def timeSinceLastPrint (now last : TimePoint) : Int := Int.tdiv (now - last) oneSecond

/-- One iteration of `stats_timer_thread`. -/
def timerIteration (p : MessageProcessor) (now printed : TimePoint) :
    MessageProcessor × List ProcessorEvent :=
  if timeSinceLastPrint now p.lastStatsPrintTime ≥ p.timeoutSeconds
      && hasStatsChangedSinceLastPrint p.metricsCollector then
    let (output, p) := p.putStats printed
    ({ p with lastStatsPrintTime := now }, [.emitted .timer output, .lastWritten .timer now])
  else (p, [])

/-! ## What one call does -/

/-- Putting the statistics out changes neither the total nor anything outside
the collector. -/
theorem putStats_spec (p : MessageProcessor) (now : TimePoint) :
    (p.putStats now).2.metricsCollector.totalMessages = p.metricsCollector.totalMessages
      ∧ (p.putStats now).2.messageInterval = p.messageInterval
      ∧ (p.putStats now).2.timeoutSeconds = p.timeoutSeconds
      ∧ (p.putStats now).2.lastStatsPrintTime = p.lastStatsPrintTime
      ∧ (p.putStats now).2.running = p.running
      ∧ (p.putStats now).2.statsCallback = p.statsCallback := by
  unfold putStats
  split
  · exact ⟨rfl, rfl, rfl, rfl, rfl, rfl⟩
  · exact ⟨rfl, rfl, rfl, rfl, rfl, rfl⟩

/-- The test and the output behind an added message leave the total alone. -/
theorem checkCount_total (p : MessageProcessor) (clock : Readings) :
    (p.checkCount clock).1.metricsCollector.totalMessages
      = p.metricsCollector.totalMessages := by
  unfold checkCount
  split
  · exact (p.putStats_spec clock.printed).1
  · rfl

/-- A rejected payload leaves the processor as it was. -/
theorem processMessage_rejected (p : MessageProcessor) {logMessage text : Bytes}
    (clock : Readings) (h : parsePayload logMessage = .error text) :
    p.processMessage logMessage clock = (p, [.log logMessage, .parseError text]) := by
  unfold processMessage
  rw [h]

/-- An accepted payload counts. -/
theorem processMessage_accepted (p : MessageProcessor) {logMessage message : Bytes}
    {level : LogLevel} (clock : Readings) (h : parsePayload logMessage = .ok (message, level)) :
    (p.processMessage logMessage clock).1.metricsCollector.totalMessages
      = sizeAdd p.metricsCollector.totalMessages 1 := by
  unfold processMessage
  rw [h]
  exact checkCount_total _ clock

end MessageProcessor

/-- A record is accepted with its level, and with its message less leading
white space. -/
theorem parsePayload_formatMessage {timestamp : Bytes} (message : Bytes) (level : LogLevel)
    (hclose : ']'.toUInt8 ∉ timestamp) :
    parsePayload (Logger.formatMessage timestamp message level)
      = .ok (message.dropWhile isspaceChar, level) := by
  unfold parsePayload
  rw [parseMessageFromLog_formatMessage message level hclose,
    parseLevelFromLog_formatMessage message level hclose]

end LogMetrics.MetricsApplication
