import LogMetrics.Base.Lines
import LogMetrics.Base.Search
import LogMetrics.Logger.Utility

/-!
# `CommandParser`

`src/test_application/command_parser.cpp`: a line the user typed becomes a
command. `split` reads a `std::stringstream` with `std::getline`, which is
`getlines`; `parse_level` folds case and compares, as the logger's
`string_to_level` does.

The message of a command is always cut out of the line
(`parseCommand_subset`), so it holds no byte the line does not.
-/

namespace LogMetrics.TestApplication

open LogMetrics.Base
open LogMetrics.Logger (LogLevel)

inductive CommandType where
  | logMessage
  | help
  | exit
  deriving DecidableEq, Repr

/-- `ParsedCommand`. -/
structure ParsedCommand where
  type : CommandType
  message : Bytes := []
  level : Option LogLevel := none
  deriving DecidableEq, Repr

/-- The set of characters `trim` strips. -/
def blanks : Bytes := ascii " \t\r\n"

/-- `CommandParser::trim`. A string with a first such position has a last one,
so the `npos` of the second search is not met. -/
def trim (str : Bytes) : Bytes :=
  match findFirstNotOf str blanks with
  | none => []
  | some start =>
    match findLastNotOf str blanks with
    | none => []
    | some last => substr str start (last - start + 1)

/-- `CommandParser::split`. -/
def split (str : Bytes) (delimiter : Byte) : List Bytes :=
  ((getlines delimiter str).map trim).filter fun token => !token.isEmpty

/-- `CommandParser::parse_level`. -/
def parseLevel (levelStr : Bytes) : Option LogLevel :=
  let lowerLevel := transformTolower levelStr
  if lowerLevel = ascii "debug" then some .debug
  else if lowerLevel = ascii "info" then some .info
  else if lowerLevel = ascii "warning" then some .warning
  else if lowerLevel = ascii "error" then some .error
  else if lowerLevel = ascii "fatal" then some .fatal
  else none

/-- `trimmed_input.substr(0, trimmed_input.rfind(' '))`; without a blank the
count is `npos` and the string stays whole. -/
def beforeLastBlank (str : Bytes) : Bytes :=
  match rfind str ' '.toUInt8 with
  | none => str
  | some position => substr str 0 position

/-- `CommandParser::parse_command`. -/
def parseCommand (input : Bytes) : Option ParsedCommand :=
  let trimmedInput := trim input
  if trimmedInput.isEmpty then none
  else if trimmedInput = ascii "exit" ∨ trimmedInput = ascii "quit" then some { type := .exit }
  else if trimmedInput = ascii "help" then some { type := .help }
  else
    let tokens := split trimmedInput ' '.toUInt8
    match tokens.getLast? with
    | none => none
    | some levelStr =>
      match parseLevel levelStr with
      | some level =>
        if tokens.length > 1 then
          some {
            type := .logMessage, message := trim (beforeLastBlank trimmedInput), level := some level }
        else some { type := .logMessage, message := trimmedInput }
      | none => some { type := .logMessage, message := trimmedInput }

/-! ## The message is part of the line -/

theorem trim_subset (str : Bytes) : trim str ⊆ str := by
  unfold trim
  split
  · exact List.nil_subset _
  · split
    · exact List.nil_subset _
    · exact substr_subset _ _ _

theorem beforeLastBlank_subset (str : Bytes) : beforeLastBlank str ⊆ str := by
  unfold beforeLastBlank
  split
  · exact List.Subset.refl _
  · exact substr_subset _ _ _

/-- A command's message holds nothing that the line does not. -/
theorem parseCommand_subset {input : Bytes} {command : ParsedCommand}
    (h : parseCommand input = some command) : command.message ⊆ input := by
  have htrim := trim_subset input
  unfold parseCommand at h
  dsimp only at h
  split at h
  next => exact absurd h (by simp)
  next =>
    split at h
    next => cases h; exact List.nil_subset _
    next =>
      split at h
      next => cases h; exact List.nil_subset _
      next =>
        split at h
        next => exact absurd h (by simp)
        next =>
          split at h
          next =>
            split at h
            next =>
              cases h
              exact List.Subset.trans (trim_subset _)
                (List.Subset.trans (beforeLastBlank_subset _) htrim)
            next => cases h; exact htrim
          next => cases h; exact htrim

end LogMetrics.TestApplication
