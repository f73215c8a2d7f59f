import LogMetrics.Bytes

/-!
# `logger::utility`: levels and the text of a record

`src/logger/log_level.hpp` and `src/logger/utility.cpp`. A record is
`"[" timestamp "] [" LEVEL "] " message`; `format_message` asks
`get_current_timestamp` for the first field, so the text it got is an
argument here.

`LogLevel` is an unscoped enumeration over the values 0 to 4. The program
never builds another value, so the `default` branch of `level_to_string`
(`"UNKNOWN"`) has no counterpart.
-/

namespace LogMetrics.Logger

/-- `logger::LogLevel`. -/
inductive LogLevel where
  | debug
  | info
  | warning
  | error
  | fatal
  deriving DecidableEq, Repr

/-- The enumerator's value: levels are compared as integers. -/
def LogLevel.toNat : LogLevel → Nat
  | .debug => 0
  | .info => 1
  | .warning => 2
  | .error => 3
  | .fatal => 4

/-- The five levels in the order of their values. -/
def LogLevel.all : List LogLevel := [.debug, .info, .warning, .error, .fatal]

/-- `level_to_string`. -/
def levelToString : LogLevel → Bytes
  | .debug => ascii "DEBUG"
  | .info => ascii "INFO"
  | .warning => ascii "WARNING"
  | .error => ascii "ERROR"
  | .fatal => ascii "FATAL"

/-- `string_to_level`. -/
def stringToLevel (levelStr : Bytes) : Option LogLevel :=
  let levelStr := transformTolower levelStr
  if levelStr = ascii "debug" then some .debug
  else if levelStr = ascii "info" then some .info
  else if levelStr = ascii "warning" then some .warning
  else if levelStr = ascii "error" then some .error
  else if levelStr = ascii "fatal" then some .fatal
  else none

/-- `format_message`, with the text `get_current_timestamp` returned. -/
def formatMessage (timestamp message : Bytes) (level : LogLevel) : Bytes :=
  ascii "[" ++ timestamp ++ ascii "] " ++ ascii "[" ++ levelToString level ++ ascii "] "
    ++ message

/-- The level lookup undoes `level_to_string`. -/
theorem stringToLevel_levelToString (level : LogLevel) :
    stringToLevel (levelToString level) = some level := by
  cases level <;> decide

/-- A level name has no bracket and no newline. -/
theorem levelToString_plain (level : LogLevel) :
    '['.toUInt8 ∉ levelToString level ∧ ']'.toUInt8 ∉ levelToString level
      ∧ '\n'.toUInt8 ∉ levelToString level := by
  cases level <;> decide

/-- A record is never empty. -/
theorem formatMessage_ne_nil (timestamp message : Bytes) (level : LogLevel) :
    formatMessage timestamp message level ≠ [] := by
  simp [formatMessage, ascii]

/-- A record is one line when its timestamp and its message are. -/
theorem formatMessage_newline_free {timestamp message : Bytes} (level : LogLevel)
    (ht : '\n'.toUInt8 ∉ timestamp) (hm : '\n'.toUInt8 ∉ message) :
    '\n'.toUInt8 ∉ formatMessage timestamp message level := by
  have hl := (levelToString_plain level).2.2
  simp only [formatMessage, List.mem_append, not_or]
  exact ⟨⟨⟨⟨⟨⟨by decide, ht⟩, by decide⟩, by decide⟩, hl⟩, by decide⟩, hm⟩

end LogMetrics.Logger
