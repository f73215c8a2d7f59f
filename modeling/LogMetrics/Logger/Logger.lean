import LogMetrics.Logger.Sink
import LogMetrics.Logger.Utility

/-!
# `Logger`

`src/logger/logger.cpp`, generic in the sinks it owns. `log` filters by
level, asks whether any sink is valid, and hands the record to every sink in
turn; the two sections it runs under `sinks_mutex_` are one after the other
here (`ConcurrentLog` takes them apart).
-/

namespace LogMetrics.Logger

/-- `Logger`. -/
structure Logger (σ : Type) where
  sinks : List σ
  defaultLevel : LogLevel

namespace Logger

variable {σ : Type} [ILogSink σ]

/-- `Logger::is_valid`. -/
def isValid (logger : Logger σ) : Bool :=
  if logger.sinks.isEmpty then false else logger.sinks.any ILogSink.isValid

/-- The level test at the top of `Logger::log`: the message is dropped. -/
def isBelow (level : LogLevel) (defaultLevel : LogLevel) : Bool :=
  decide (level.toNat < defaultLevel.toNat)

/-- The section of `Logger::log` that writes a record to every sink. -/
def writeAll (record : Bytes) (logger : Logger σ) : Logger σ :=
  { logger with sinks := logger.sinks.map (ILogSink.write record) }

/-- `Logger::log`. -/
def log (timestamp message : Bytes) (level : LogLevel) (logger : Logger σ) : Logger σ :=
  if isBelow level logger.defaultLevel then logger
  else if not logger.isValid then logger
  else writeAll (formatMessage timestamp message level) logger

/-- The constructor. -/
def create (defaultLevel : LogLevel) : Logger σ where
  sinks := []
  defaultLevel := defaultLevel

/-- `Logger::add_sink`; a null pointer is not added. -/
def addSink (sink : Option σ) (logger : Logger σ) : Logger σ :=
  match sink with
  | some sink => { logger with sinks := logger.sinks ++ [sink] }
  | none => logger

/-- `Logger::clear_sinks`. -/
def clearSinks (logger : Logger σ) : Logger σ := { logger with sinks := [] }

/-- `Logger::create_logger` with the sink it has constructed. -/
def createLogger (sink : σ) (defaultLevel : LogLevel) : Option (Logger σ) :=
  let logger := create defaultLevel
  if not (ILogSink.isValid sink) then none else some (logger.addSink (some sink))

/-- `Logger::sink_count`. -/
def sinkCount (logger : Logger σ) : Nat := logger.sinks.length

/-- `Logger::set_default_level`. -/
def setDefaultLevel (level : LogLevel) (logger : Logger σ) : Logger σ :=
  { logger with defaultLevel := level }

/-- `Logger::get_default_level`. -/
def getDefaultLevel (logger : Logger σ) : LogLevel := logger.defaultLevel

/-- `Logger::log` without a level. -/
def logDefault (timestamp message : Bytes) (logger : Logger σ) : Logger σ :=
  log timestamp message logger.defaultLevel logger

/-- `Logger::debug`. -/
def debug (timestamp message : Bytes) (logger : Logger σ) : Logger σ :=
  log timestamp message .debug logger

/-- `Logger::info`. -/
def info (timestamp message : Bytes) (logger : Logger σ) : Logger σ :=
  log timestamp message .info logger

/-- `Logger::warning`. -/
def warning (timestamp message : Bytes) (logger : Logger σ) : Logger σ :=
  log timestamp message .warning logger

/-- `Logger::error`. -/
def error (timestamp message : Bytes) (logger : Logger σ) : Logger σ :=
  log timestamp message .error logger

/-- `Logger::fatal`. -/
def fatal (timestamp message : Bytes) (logger : Logger σ) : Logger σ :=
  log timestamp message .fatal logger

/-- A logger with one sink is valid when the sink is. -/
theorem isValid_one {logger : Logger σ} {sink : σ} (h : logger.sinks = [sink]) :
    logger.isValid = ILogSink.isValid sink := by
  simp [isValid, h]

/-- Logging leaves the default level alone. -/
theorem log_defaultLevel (timestamp message : Bytes) (level : LogLevel) (logger : Logger σ) :
    (log timestamp message level logger).defaultLevel = logger.defaultLevel := by
  unfold log
  split
  · rfl
  · split
    · rfl
    · rfl

end Logger

end LogMetrics.Logger
