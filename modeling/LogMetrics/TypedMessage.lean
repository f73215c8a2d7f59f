import LogMetrics.MetricsApplication.MessageProcessor
import LogMetrics.TestApplication.CommandGrammar

/-!
# A typed message on its way to the metrics

The message of a line the user types is logged as a record, and the metrics
application reads it back. The sender's `trim` strips `" \t\r\n"` from the
line, the receiver's `parse_message_from_log` passes over all of `isspace`,
which has `'\v'` and `'\f'` too. So a message arrives as it was typed unless
it starts with one of these two (`typed_message_kept_iff`); of one that does,
the receiver drops them and counts too short a length
(`typed_message_shortened`).
-/

namespace LogMetrics

open LogMetrics.Base
open LogMetrics.Logger (LogLevel formatMessage)
open LogMetrics.MetricsApplication
open LogMetrics.TestApplication (ParsedCommand parseCommand isBlank message_stripped)

/-- White space is what `trim` strips, and `'\v'` and `'\f'`. -/
theorem isspaceChar_iff (c : Byte) : isspaceChar c = true ↔ isBlank c = true ∨ c = 11 ∨ c = 12 :=
  forall_byte (P := fun c => isspaceChar c = true ↔ isBlank c = true ∨ c = 11 ∨ c = 12)
    (by decide +kernel) c

/-- What is left of the line behind its leading blanks does not start with
`'\v'` or `'\f'`. -/
def StartsPlain (line : Bytes) : Prop :=
  ∀ c rest, line.dropWhile isBlank = c :: rest → c ≠ 11 ∧ c ≠ 12

/-- The record of the message is read back with the message and its level, and
the collector counts the message's length. -/
structure Arrives (timestamp message : Bytes) (level : LogLevel) : Prop where
  message_kept : parseMessageFromLog (formatMessage timestamp message level) = some message
  level_kept : parseLevelFromLog (formatMessage timestamp message level) = some level
  counted : ∀ (p : MessageProcessor) (clock : Readings),
    (p.processMessage (formatMessage timestamp message level) clock).1.metricsCollector.totalLength
      = sizeAdd p.metricsCollector.totalLength message.length

theorem putStats_totalLength (p : MessageProcessor) (now : TimePoint) :
    (p.putStats now).2.metricsCollector.totalLength = p.metricsCollector.totalLength := by
  unfold MessageProcessor.putStats
  split
  · rfl
  · rfl

/-- The output behind an added message leaves the lengths alone. -/
theorem checkCount_totalLength (p : MessageProcessor) (clock : Readings) :
    (p.checkCount clock).1.metricsCollector.totalLength = p.metricsCollector.totalLength := by
  unfold MessageProcessor.checkCount
  split
  · exact putStats_totalLength p clock.printed
  · rfl

/-- A command's message starts as its line does, behind the leading blanks. -/
theorem message_head {line : Bytes} {command : ParsedCommand}
    (h : parseCommand line = some command) (htype : command.type = .logMessage) :
    ∃ c rest rest', command.message = c :: rest ∧ line.dropWhile isBlank = c :: rest'
      ∧ isBlank c = false := by
  obtain ⟨hstripped, c, rest, rest', hmessage, hstrip⟩ := message_stripped h htype
  obtain ⟨tail, htail⟩ := List.rdropWhile_prefix isBlank (l := line.dropWhile isBlank)
  rw [← strip, hstrip, List.cons_append] at htail
  exact ⟨c, rest, _, hmessage, htail.symm, hstripped.head c rest hmessage⟩

/-- **A typed message arrives unchanged exactly when its line starts plain.** -/
theorem typed_message_kept_iff (line timestamp : Bytes) (command : ParsedCommand) (level : LogLevel)
    (hparse : parseCommand line = some command) (htype : command.type = .logMessage)
    (hts : '['.toUInt8 ∉ timestamp ∧ ']'.toUInt8 ∉ timestamp) :
    Arrives timestamp command.message level ↔ StartsPlain line := by
  obtain ⟨c, rest, rest', hmessage, hline, hblank⟩ := message_head hparse htype
  have hread := parseMessageFromLog_formatMessage command.message level hts.2
  constructor
  · intro harrives c' rest'' hline'
    rw [hline] at hline'
    obtain ⟨rfl, -⟩ := List.cons.inj hline'
    -- a first character the receiver passes over is missing from what it reads
    have hkept : isspaceChar c = false := by
      rw [Bool.eq_false_iff]
      intro hspace
      rw [harrives.message_kept, hmessage, List.dropWhile_cons_of_pos hspace] at hread
      have hlen := congrArg List.length (Option.some.inj hread)
      have hle := (List.dropWhile_suffix isspaceChar (l := rest)).length_le
      rw [List.length_cons] at hlen
      omega
    rw [Bool.eq_false_iff, ne_eq, isspaceChar_iff, not_or, not_or] at hkept
    exact hkept.2
  · intro hplain
    obtain ⟨hv, hf⟩ := hplain c rest' hline
    have hkept : ¬isspaceChar c = true := by
      rw [isspaceChar_iff, hblank]
      simp [hv, hf]
    have hsame : command.message.dropWhile isspaceChar = command.message := by
      rw [hmessage, List.dropWhile_cons_of_neg hkept]
    rw [hsame] at hread
    refine ⟨hread, parseLevelFromLog_formatMessage command.message level hts.2, fun p clock => ?_⟩
    have hpayload := parsePayload_formatMessage command.message level hts.2
    rw [hsame] at hpayload
    unfold MessageProcessor.processMessage
    rw [hpayload]
    exact checkCount_totalLength _ clock

theorem typed_message_kept_hello :
    Arrives (ascii "2024-01-15 10:30:45.000120") (ascii "hello  [world]") .error :=
  (typed_message_kept_iff (ascii " hello  [world]\t ERROR ") (ascii "2024-01-15 10:30:45.000120")
    { type := .logMessage, message := ascii "hello  [world]", level := some .error } .error
    rfl rfl (by decide)).mpr (by rintro c rest h; cases h; decide)

/-- A line that starts with `'\v'`. -/
def verticalTab : Bytes := 11 :: ascii "late info"

/-- Its message arrives without it. -/
theorem typed_message_shortened :
    parseCommand verticalTab
        = some { type := .logMessage, message := 11 :: ascii "late", level := some .info }
      ∧ parseMessageFromLog (formatMessage (ascii "t") (11 :: ascii "late") .info)
        = some (ascii "late")
      ∧ ¬Arrives (ascii "t") (11 :: ascii "late") .info := by
  refine ⟨by decide, by decide, fun harrives => ?_⟩
  exact absurd harrives.message_kept (by decide)

end LogMetrics
