import LogMetrics.Base.Search
import LogMetrics.Logger.Utility

/-!
# `metrics_application::utility`: reading a record back

`src/metrics_application/utility.cpp`. Both parsers look for the same four
brackets, each search starting at the position of the bracket before; the
scan is written out twice in the source and is `scanBrackets` here, and an
early `return std::nullopt` is the `none` of the `Option` block.

Main result: `parse_formatMessage`. A record built by `format_message` is
read back to its level and to its message less leading white space, whatever
bytes the message is made of: the four searches stop inside the header
(`scanBrackets_header`), because neither the timestamp nor a level name has a
bracket, so the message is never searched.
-/

namespace LogMetrics.MetricsApplication

open LogMetrics.Base
open LogMetrics.Logger (LogLevel stringToLevel levelToString formatMessage
  stringToLevel_levelToString levelToString_plain)

/-- The four positions both parsers look for. -/
structure Brackets where
  firstBracket : Nat
  firstClosing : Nat
  secondBracket : Nat
  secondClosing : Nat
  deriving DecidableEq, Repr

/-- The scan for `[timestamp] [LEVEL]`. -/
def scanBrackets (logMessage : Bytes) : Option Brackets := do
  let firstBracket ← find logMessage '['.toUInt8 0
  let firstClosing ← find logMessage ']'.toUInt8 firstBracket
  let secondBracket ← find logMessage '['.toUInt8 firstClosing
  let secondClosing ← find logMessage ']'.toUInt8 secondBracket
  return { firstBracket, firstClosing, secondBracket, secondClosing }

/-- `parse_level_from_log`. -/
def parseLevelFromLog (logMessage : Bytes) : Option LogLevel := do
  let b ← scanBrackets logMessage
  let levelStart := b.secondBracket + 1
  let levelLength := b.secondClosing - levelStart
  stringToLevel (substr logMessage levelStart levelLength)

/-- The loop that moves `message_start` over white space; `rest` is the text
from `message_start` on. -/
def skipSpace (messageStart : Nat) : (rest : Bytes) → Nat
  | [] => messageStart
  | c :: rest => if isspaceChar c then skipSpace (messageStart + 1) rest else messageStart

/-- `parse_message_from_log`. -/
def parseMessageFromLog (logMessage : Bytes) : Option Bytes := do
  let b ← scanBrackets logMessage
  let messageStart := b.secondClosing + 1
  let messageStart := skipSpace messageStart (logMessage.drop messageStart)
  if messageStart ≥ logMessage.length then return []
  return logMessage.drop messageStart

/-! ## The skip loop -/

/-- The loop stops behind the leading run of white space. -/
theorem skipSpace_eq (messageStart : Nat) (rest : Bytes) :
    skipSpace messageStart rest = messageStart + (rest.takeWhile isspaceChar).length := by
  induction rest generalizing messageStart with
  | nil => rfl
  | cons c rest ih =>
    rw [skipSpace, List.takeWhile_cons]
    split
    · rw [ih, List.length_cons]
      omega
    · rfl

/-- Behind the loop's position the text is what `dropWhile` leaves. -/
theorem drop_skipSpace (logMessage : Bytes) (messageStart : Nat) :
    logMessage.drop (skipSpace messageStart (logMessage.drop messageStart))
      = (logMessage.drop messageStart).dropWhile isspaceChar := by
  rw [skipSpace_eq]
  exact drop_add_of_drop_eq List.takeWhile_append_dropWhile.symm

/-- What `parse_message_from_log` returns once the brackets are found: the
text behind them, less leading white space (the empty text is the case the
source returns `std::string()` for). -/
theorem parseMessageFromLog_eq (logMessage : Bytes) :
    parseMessageFromLog logMessage
      = (scanBrackets logMessage).map fun b =>
          (logMessage.drop (b.secondClosing + 1)).dropWhile isspaceChar := by
  unfold parseMessageFromLog
  cases scanBrackets logMessage with
  | none => rfl
  | some b =>
    simp only [Option.bind_eq_bind, Option.bind_some, Option.map_some, ← drop_skipSpace]
    split
    next hend => rw [List.drop_eq_nil_of_le hend]; rfl
    next => rfl

/-! ## Scanning a header -/

/-- A text that starts `a [ b ] c [ d ]`, with no bracket in the way of a
search, is scanned to these positions. -/
theorem scanBrackets_header {a b c d e : Bytes} (ha : '['.toUInt8 ∉ a)
    (hb : ']'.toUInt8 ∉ b) (hc : '['.toUInt8 ∉ c) (hd : ']'.toUInt8 ∉ d) :
    scanBrackets (a ++ '['.toUInt8 :: (b ++ ']'.toUInt8 ::
        (c ++ '['.toUInt8 :: (d ++ ']'.toUInt8 :: e))))
      = some {
          firstBracket := a.length
          firstClosing := a.length + (b.length + 1)
          secondBracket := a.length + (b.length + 1) + (c.length + 1)
          secondClosing := a.length + (b.length + 1) + (c.length + 1) + (d.length + 1) } := by
  generalize hs : a ++ '['.toUInt8 :: (b ++ ']'.toUInt8 ::
    (c ++ '['.toUInt8 :: (d ++ ']'.toUInt8 :: e))) = s
  have hfind₁ : find s '['.toUInt8 0 = some a.length :=
    find_eq_some_iff.mpr ⟨a, _, hs.symm, ha, (Nat.zero_add _).symm⟩
  have hdrop₁ : s.drop a.length = ('['.toUInt8 :: b) ++ ']'.toUInt8 ::
      (c ++ '['.toUInt8 :: (d ++ ']'.toUInt8 :: e)) := by
    rw [← hs, List.drop_left]
    rfl
  -- each later search starts on a bracket of the other kind
  have hfind₂ : find s ']'.toUInt8 a.length = some (a.length + (b.length + 1)) :=
    find_eq_some_iff.mpr ⟨_, _, hdrop₁, List.not_mem_cons_of_ne_of_not_mem (by decide) hb, rfl⟩
  have hdrop₂ := drop_add_of_drop_eq hdrop₁
  have hfind₃ : find s '['.toUInt8 (a.length + (b.length + 1))
      = some (a.length + (b.length + 1) + (c.length + 1)) :=
    find_eq_some_iff.mpr ⟨']'.toUInt8 :: c, _, hdrop₂, List.not_mem_cons_of_ne_of_not_mem (by decide) hc, rfl⟩
  have hdrop₃ := drop_add_of_drop_eq (a := ']'.toUInt8 :: c) hdrop₂
  have hfind₄ : find s ']'.toUInt8 (a.length + (b.length + 1) + (c.length + 1))
      = some (a.length + (b.length + 1) + (c.length + 1) + (d.length + 1)) :=
    find_eq_some_iff.mpr ⟨'['.toUInt8 :: d, _, hdrop₃, List.not_mem_cons_of_ne_of_not_mem (by decide) hd, rfl⟩
  simp [scanBrackets, hfind₁, hfind₂, hfind₃, hfind₄]

/-! ## Reading back a record -/

/-- A record with its brackets in view. -/
theorem formatMessage_eq (timestamp message : Bytes) (level : LogLevel) :
    formatMessage timestamp message level
      = [] ++ '['.toUInt8 :: (timestamp ++ ']'.toUInt8 :: (ascii " " ++ '['.toUInt8 ::
          (levelToString level ++ ']'.toUInt8 :: (ascii " " ++ message)))) := by
  have hopen : ascii "[" = ['['.toUInt8] := by decide
  have hclose : ascii "] " = ']'.toUInt8 :: ascii " " := by decide
  simp only [formatMessage, hopen, hclose, List.append_assoc, List.cons_append, List.nil_append]

/-- The scan of a record ends at the bracket behind its level. -/
theorem scanBrackets_formatMessage {timestamp : Bytes} (message : Bytes) (level : LogLevel)
    (hts : ']'.toUInt8 ∉ timestamp) :
    ∃ b, scanBrackets (formatMessage timestamp message level) = some b
      ∧ (formatMessage timestamp message level).drop (b.secondBracket + 1)
        = levelToString level ++ ']'.toUInt8 :: (ascii " " ++ message)
      ∧ b.secondClosing = b.secondBracket + 1 + (levelToString level).length := by
  have hscan := scanBrackets_header (a := []) (c := ascii " ") (e := ascii " " ++ message)
    (by decide) hts (by decide) (levelToString_plain level).2.1
  rw [← formatMessage_eq] at hscan
  refine ⟨_, hscan, ?_, ?_⟩
  · rw [formatMessage_eq]
    simp [← List.drop_drop, ascii]
  · simp only
    omega

theorem parseLevelFromLog_formatMessage {timestamp : Bytes} (message : Bytes) (level : LogLevel)
    (hts : ']'.toUInt8 ∉ timestamp) :
    parseLevelFromLog (formatMessage timestamp message level) = some level := by
  obtain ⟨b, hscan, hdrop, hclosing⟩ := scanBrackets_formatMessage message level hts
  simp only [parseLevelFromLog, hscan, Option.bind_eq_bind, Option.bind_some, substr, hdrop]
  rw [hclosing, Nat.add_sub_cancel_left, List.take_left]
  exact stringToLevel_levelToString level

theorem parseMessageFromLog_formatMessage {timestamp : Bytes} (message : Bytes)
    (level : LogLevel) (hts : ']'.toUInt8 ∉ timestamp) :
    parseMessageFromLog (formatMessage timestamp message level)
      = some (message.dropWhile isspaceChar) := by
  obtain ⟨b, hscan, hdrop, hclosing⟩ := scanBrackets_formatMessage message level hts
  have hrest : (formatMessage timestamp message level).drop (b.secondClosing + 1)
      = ascii " " ++ message := by
    have := drop_add_of_drop_eq (a := levelToString level) hdrop
    rw [← hclosing] at this
    rw [← List.drop_drop, this]
    rfl
  -- the blank behind the level's bracket is white space, so the loop passes it too
  have hblank : isspaceChar ' '.toUInt8 = true := by decide
  rw [parseMessageFromLog_eq, hscan, Option.map_some, hrest]
  exact congrArg some (List.dropWhile_cons_of_pos hblank)

/-- **Decode undoes encode.** The two parsers read from a record the level it
was built with and its message less the leading run of white space; nothing
is lost when the message does not start with white space. -/
theorem parse_formatMessage (timestamp message : Bytes) (level : LogLevel)
    (hclose : ']'.toUInt8 ∉ timestamp) :
    parseLevelFromLog (formatMessage timestamp message level) = some level
      ∧ parseMessageFromLog (formatMessage timestamp message level)
          = some (message.dropWhile isspaceChar)
      ∧ ((∀ c rest, message = c :: rest → isspaceChar c = false) →
          parseMessageFromLog (formatMessage timestamp message level) = some message) := by
  refine ⟨parseLevelFromLog_formatMessage message level hclose,
    parseMessageFromLog_formatMessage message level hclose, fun hhead => ?_⟩
  rw [parseMessageFromLog_formatMessage message level hclose]
  cases message with
  | nil => rfl
  | cons c rest => rw [List.dropWhile_cons_of_neg (by simp [hhead c rest rfl])]

/-- A record whose message holds a second header. -/
theorem parse_formatMessage_nested :
    parseMessageFromLog (formatMessage (ascii "2024-01-15 10:30:45.000120") (ascii "a [b] [FATAL]")
        .debug) = some (ascii "a [b] [FATAL]") :=
  (parse_formatMessage (ascii "2024-01-15 10:30:45.000120") (ascii "a [b] [FATAL]") .debug
    (by decide)).2.2 (by rintro c rest h; cases h; decide)

end LogMetrics.MetricsApplication
