import Mathlib.Data.List.DropRight
import LogMetrics.Logger.Utility
import LogMetrics.Base.Window

/-!
# `MetricsCollector`: the statistics

`src/metrics_application/message_stats.hpp` and `metrics_collector.cpp`. Every
method runs under `stats_mutex_`, so a run of the collector, whichever threads
make the calls, is a list of calls; each call that reads `steady_clock` carries
its reading. `print_stats` returns the values it prints (a `StatsReport`), not
the text around them.

The counters are `size_t` and wrap; `messages_last_hour` only ever receives a
container's `size()` and `min_length`, `max_length` only lengths, so these are
plain numbers.

`CollectorExact` proves every figure exact over whole runs, `LastHour` the
window; both speak of a run through the list of its calls: the messages
`added`, the `addTimes`, and the calls up to and since the latest
`print_stats`.
-/

namespace LogMetrics.MetricsApplication

open LogMetrics.Base
open LogMetrics.Logger (LogLevel levelToString)

/-- A `steady_clock` reading, in nanoseconds. -/
abbrev TimePoint := Int

/-- `std::chrono::seconds(1)` in clock ticks. -/
def oneSecond : Int := 1000000000

/-- `std::chrono::hours(1)` in clock ticks. -/
def oneHour : Int := 3600 * oneSecond

/-- `MessageStats`. -/
structure MessageStats where
  totalMessages : Nat := 0
  messagesByLevel : LogLevel → Nat := fun _ => 0
  messagesLastHour : Nat := 0
  minLength : Nat := sizeMax
  maxLength : Nat := 0
  averageLength : Float := 0.0
  totalLength : Nat := 0
  messageTimestamps : List TimePoint := []
  lastPrintedTotalMessages : Nat := 0

/-- The values `print_stats` prints: the level lines are those with a positive
count, the length lines are missing when there is no message. -/
structure StatsReport where
  totalMessages : Nat
  messagesLastHour : Nat
  messagesByLevel : List (Bytes × Nat)
  lengths : Option (Nat × Nat × Float)

namespace MetricsCollector

/-- A `size_t` converted to `double`. -/
def sizeToDouble (n : Nat) : Float := n.toUInt64.toFloat

/-- `add_message`. -/
def addMessage (message : Bytes) (level : LogLevel) (now : TimePoint)
    (stats : MessageStats) : MessageStats :=
  let totalMessages := sizeAdd stats.totalMessages 1
  let messageLength := message.length
  let totalLength := sizeAdd stats.totalLength messageLength
  { stats with
    totalMessages := totalMessages
    messagesByLevel := fun l =>
      if l = level then sizeAdd (stats.messagesByLevel l) 1 else stats.messagesByLevel l
    totalLength := totalLength
    minLength := min stats.minLength messageLength
    maxLength := max stats.maxLength messageLength
    averageLength := sizeToDouble totalLength / sizeToDouble totalMessages
    messageTimestamps := stats.messageTimestamps ++ [now] }

/-- `update_messages_last_hour`: the loop pops the front while it is older
than one hour. -/
def updateMessagesLastHour (now : TimePoint) (stats : MessageStats) : MessageStats :=
  let oneHourAgo := now - oneHour
  let timestamps := stats.messageTimestamps.dropWhile fun t => decide (t < oneHourAgo)
  { stats with messageTimestamps := timestamps, messagesLastHour := timestamps.length }

/-- The values of `stats` that `print_stats` prints. -/
def report (stats : MessageStats) : StatsReport where
  totalMessages := stats.totalMessages
  messagesLastHour := stats.messagesLastHour
  messagesByLevel := (LogLevel.all.filter fun l => stats.messagesByLevel l > 0).map fun l =>
    (levelToString l, stats.messagesByLevel l)
  lengths :=
    if stats.totalMessages > 0 then some (stats.minLength, stats.maxLength, stats.averageLength)
    else none

/-- `print_stats`. -/
def printStats (now : TimePoint) (stats : MessageStats) : StatsReport × MessageStats :=
  let stats := updateMessagesLastHour now stats
  (report stats, { stats with lastPrintedTotalMessages := stats.totalMessages })

/-- `should_print_stats`. The code divides by the interval, and is not defined
for 0, which `main` does not let through; here it answers false then. -/
def shouldPrintStats (messageInterval : Nat) (stats : MessageStats) : Bool :=
  decide (stats.totalMessages > 0) && stats.totalMessages % messageInterval == 0

/-- `has_stats_changed_since_last_print`. -/
def hasStatsChangedSinceLastPrint (stats : MessageStats) : Bool :=
  stats.totalMessages != stats.lastPrintedTotalMessages

/-- `get_stats`. -/
def getStats (now : TimePoint) (stats : MessageStats) : MessageStats × MessageStats :=
  let stats := updateMessagesLastHour now stats
  (stats, stats)

end MetricsCollector

open MetricsCollector

/-! ## Runs of calls -/

/-- One call of a collector method. -/
inductive CollectorCall where
  | addMessage (message : Bytes) (level : LogLevel) (now : TimePoint)
  | printStats (now : TimePoint)
  | getStats (now : TimePoint)
  | shouldPrintStats (messageInterval : Nat)
  | hasStatsChangedSinceLastPrint

namespace CollectorCall

/-- The statistics after the call. -/
def exec : CollectorCall → MessageStats → MessageStats
  | .addMessage message level now, stats => MetricsCollector.addMessage message level now stats
  | .printStats now, stats => (MetricsCollector.printStats now stats).2
  | .getStats now, stats => (MetricsCollector.getStats now stats).2
  | .shouldPrintStats _, stats => stats
  | .hasStatsChangedSinceLastPrint, stats => stats

/-- The message a call adds. -/
def added? : CollectorCall → Option (Bytes × LogLevel)
  | .addMessage message level _ => some (message, level)
  | _ => none

/-- The clock reading of a call that adds a message. -/
def addTime? : CollectorCall → Option TimePoint
  | .addMessage _ _ now => some now
  | _ => none

/-- The clock reading of a call. -/
def reading? : CollectorCall → Option TimePoint
  | .addMessage _ _ now => some now
  | .printStats now => some now
  | .getStats now => some now
  | _ => none

def isPrint : CollectorCall → Bool
  | .printStats _ => true
  | _ => false

end CollectorCall

/-- The statistics of a fresh collector after the calls. -/
def runCalls (calls : List CollectorCall) : MessageStats :=
  calls.foldl (fun stats call => call.exec stats) {}

/-- The messages added, in order. -/
def added (calls : List CollectorCall) : List (Bytes × LogLevel) :=
  calls.filterMap CollectorCall.added?

/-- The clock readings of the calls that added a message. -/
def addTimes (calls : List CollectorCall) : List TimePoint :=
  calls.filterMap CollectorCall.addTime?

/-- The calls up to the latest `print_stats` (none if there was none). -/
def upToLastPrint (calls : List CollectorCall) : List CollectorCall :=
  calls.rdropWhile fun call => !call.isPrint

/-- The calls after the latest `print_stats` (all if there was none). -/
def sinceLastPrint (calls : List CollectorCall) : List CollectorCall :=
  calls.rtakeWhile fun call => !call.isPrint

theorem runCalls_snoc (calls : List CollectorCall) (call : CollectorCall) :
    runCalls (calls ++ [call]) = call.exec (runCalls calls) := by
  simp [runCalls]

theorem added_snoc (calls : List CollectorCall) (call : CollectorCall) :
    added (calls ++ [call]) = added calls ++ call.added?.toList := by
  cases call <;> simp [added, CollectorCall.added?]

theorem addTimes_snoc (calls : List CollectorCall) (call : CollectorCall) :
    addTimes (calls ++ [call]) = addTimes calls ++ call.addTime?.toList := by
  cases call <;> simp [addTimes, CollectorCall.addTime?]

theorem added_split (calls : List CollectorCall) :
    added calls = added (upToLastPrint calls) ++ added (sinceLastPrint calls) := by
  conv => lhs; rw [← List.rdropWhile_append_rtakeWhile (p := fun call => !call.isPrint) (l := calls)]
  exact List.filterMap_append

end LogMetrics.MetricsApplication
