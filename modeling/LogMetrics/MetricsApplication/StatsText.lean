import LogMetrics.Base.Lines
import LogMetrics.Base.Strip
import LogMetrics.Decimal
import LogMetrics.MetricsApplication.ApplicationThreads

/-!
# The statistics as text

What `MetricsCollector::print_stats` writes to the standard output, line by
line, and what a reader finds in it. The text of a `double`, with two digits
behind the point, is a parameter: `average`.

The lines up to the maximum length do not depend on `average`, and the figures
can be read back from them (`readStats_statsText`). So the application shows
the figures of the messages it has counted (`stats_shown`), and never the line
that says there is no data.
-/

set_option linter.dupNamespace false

namespace LogMetrics.MetricsApplication

open LogMetrics.Base
open LogMetrics.Logger (LogLevel levelToString levelToString_plain)
open MetricsCollector ProcessorThreads

section Text

variable (average : Float → Bytes)

/-- `std::string(50, '=')`. -/
def frameLine : Bytes := List.replicate 50 '='.toUInt8

/-- The line of a level. -/
def levelLine (entry : Bytes × Nat) : Bytes :=
  ascii "  " ++ entry.1 ++ ascii ": " ++ printNat entry.2

/-- The lines of the length statistics. -/
def lengthLines : Option (Nat × Nat × Float) → List Bytes
  | some (minLength, maxLength, averageLength) => [
      ascii "  Minimum length: " ++ printNat minLength ++ ascii " characters",
      ascii "  Maximum length: " ++ printNat maxLength ++ ascii " characters",
      ascii "  Average length: " ++ average averageLength ++ ascii " characters"]
  | none => [ascii "  No data available"]

/-- The lines up to those of the levels. -/
def headLines (report : StatsReport) : List Bytes := [
  [],
  frameLine,
  ascii "           MESSAGE STATISTICS",
  frameLine,
  ascii "Total messages: " ++ printNat report.totalMessages,
  ascii "Messages in last hour: " ++ printNat report.messagesLastHour,
  [],
  ascii "Messages by log level:"]

/-- The text of `print_stats`: each line ends in `'\n'` or `std::endl`. -/
def statsText (report : StatsReport) : Bytes :=
  unlines '\n'.toUInt8
    (headLines report ++ report.messagesByLevel.map levelLine
      ++ [[], ascii "Message length statistics:"]
      ++ lengthLines average report.lengths
      ++ [frameLine, []])

end Text

/-! ## Reading it back -/

/-- The figures in the text, less the average. -/
structure StatsFigures where
  totalMessages : Nat
  messagesLastHour : Nat
  messagesByLevel : List (Bytes × Nat)
  lengths : Option (Nat × Nat)
  deriving DecidableEq, Repr

def StatsReport.figures (report : StatsReport) : StatsFigures where
  totalMessages := report.totalMessages
  messagesLastHour := report.messagesLastHour
  messagesByLevel := report.messagesByLevel
  lengths := report.lengths.map fun lengths => (lengths.1, lengths.2.1)

/-- The number behind a label. -/
def readNumber (label line : Bytes) : Option Nat :=
  if label <+: line then some (decimalValue ((line.drop label.length).takeWhile isdigit)) else none

/-- A level's name stands between two blanks and a `':'`. -/
def readLevel (line : Bytes) : Option (Bytes × Nat) :=
  let name := (line.drop 2).takeWhile (· != ':'.toUInt8)
  (readNumber (ascii "  " ++ name ++ ascii ": ") line).map (name, ·)

def readLengths : List Bytes → Option (Nat × Nat)
  | minLine :: maxLine :: _ =>
    match readNumber (ascii "  Minimum length: ") minLine,
      readNumber (ascii "  Maximum length: ") maxLine with
    | some minLength, some maxLength => some (minLength, maxLength)
    | _, _ => none
  | _ => none

/-- The figures of a text: the level lines end at an empty line. -/
def readStats (text : Bytes) : Option StatsFigures :=
  match getlines '\n'.toUInt8 text with
  | _ :: _ :: _ :: _ :: total :: lastHour :: _ :: _ :: rest =>
    match readNumber (ascii "Total messages: ") total,
      readNumber (ascii "Messages in last hour: ") lastHour with
    | some totalMessages, some messagesLastHour =>
      some {
        totalMessages
        messagesLastHour
        messagesByLevel := (rest.takeWhile (· != [])).filterMap readLevel
        lengths := readLengths ((rest.dropWhile (· != [])).drop 2) }
    | _, _ => none
  | _ => none

theorem readNumber_printNat (label : Bytes) (n : Nat) {rest : Bytes}
    (hrest : ∀ c ∈ rest.head?, isdigit c = false) :
    readNumber label (label ++ (printNat n ++ rest)) = some n := by
  obtain ⟨hdigits, hvalue⟩ := printNat_decimal n
  rw [readNumber, if_pos (List.prefix_append _ _), List.drop_left, takeWhile_span hdigits hrest,
    hvalue]

theorem readNumber_self (label : Bytes) (n : Nat) :
    readNumber label (label ++ printNat n) = some n := by
  have hend : ∀ c ∈ ([] : Bytes).head?, isdigit c = false := by simp
  have h := readNumber_printNat label n hend
  rwa [List.append_nil] at h

theorem readLevel_levelLine {entry : Bytes × Nat} (hname : ':'.toUInt8 ∉ entry.1) :
    readLevel (levelLine entry) = some entry := by
  obtain ⟨name, count⟩ := entry
  have hread : ((levelLine (name, count)).drop 2).takeWhile (· != ':'.toUInt8) = name := by
    have hdrop : (levelLine (name, count)).drop 2 = name ++ (ascii ": " ++ printNat count) := by
      rw [levelLine, List.append_assoc, List.append_assoc]
      rfl
    rw [hdrop]
    refine takeWhile_span (fun c hc => ?_) (fun c hc => ?_)
    · rw [bne_iff_ne]
      rintro rfl
      exact hname hc
    · obtain rfl : ':'.toUInt8 = c := Option.some.inj hc
      exact bne_self_eq_false _
  rw [readLevel, hread, levelLine, readNumber_self]
  rfl

theorem printNat_free {c : Byte} (hc : isdigit c = false) (n : Nat) : c ∉ printNat n := by
  intro hmem
  exact absurd ((printNat_decimal n).1 c hmem) (by simp [hc])

theorem headLines_free (report : StatsReport) : ∀ line ∈ headLines report, '\n'.toUInt8 ∉ line := by
  have hnumber (label : Bytes) (h : '\n'.toUInt8 ∉ label) (n : Nat) :
      '\n'.toUInt8 ∉ label ++ printNat n := by
    rw [List.mem_append, not_or]
    exact ⟨h, printNat_free (by decide) n⟩
  intro line hline
  simp only [headLines, List.mem_cons, List.not_mem_nil, or_false] at hline
  rcases hline with rfl | rfl | rfl | rfl | rfl | rfl | rfl | rfl
  · decide
  · decide
  · decide
  · decide
  · exact hnumber _ (by decide) _
  · exact hnumber _ (by decide) _
  · decide
  · decide

theorem levelLine_free {entry : Bytes × Nat} (hname : '\n'.toUInt8 ∉ entry.1) :
    '\n'.toUInt8 ∉ levelLine entry := by
  simp only [levelLine, List.mem_append, not_or]
  exact ⟨⟨⟨by decide, hname⟩, by decide⟩, printNat_free (by decide) _⟩

/-- The lengths are read from their first two lines. -/
theorem readLengths_lengthLines (average : Float → Bytes) (lengths : Option (Nat × Nat × Float)) :
    readLengths (getlines '\n'.toUInt8
        (unlines '\n'.toUInt8 (lengthLines average lengths ++ [frameLine, []])))
      = lengths.map fun lengths => (lengths.1, lengths.2.1) := by
  cases lengths with
  | none =>
    rw [lengthLines]
    decide +kernel
  | some lengths =>
    obtain ⟨minLength, maxLength, averageLength⟩ := lengths
    have hline (label : Bytes) (h : '\n'.toUInt8 ∉ label) (n : Nat) :
        '\n'.toUInt8 ∉ label ++ printNat n ++ ascii " characters" := by
      simp only [List.mem_append, not_or]
      exact ⟨⟨h, printNat_free (by decide) n⟩, by decide⟩
    have hboth : ∀ line ∈ [ascii "  Minimum length: " ++ printNat minLength ++ ascii " characters",
        ascii "  Maximum length: " ++ printNat maxLength ++ ascii " characters"],
        '\n'.toUInt8 ∉ line := by
      intro line hmem
      simp only [List.mem_cons, List.not_mem_nil, or_false] at hmem
      rcases hmem with rfl | rfl
      · exact hline _ (by decide) _
      · exact hline _ (by decide) _
    have hblank : ∀ c ∈ (ascii " characters").head?, isdigit c = false := by
      intro c hc
      obtain rfl : ' '.toUInt8 = c := Option.some.inj hc
      rfl
    rw [lengthLines, show ∀ a b c : Bytes, [a, b, c] = [a, b] ++ [c] from fun _ _ _ => rfl,
      List.append_assoc, unlines_append, getlines_unlines_append hboth]
    dsimp only [List.cons_append, List.nil_append]
    rw [readLengths, List.append_assoc, List.append_assoc,
      readNumber_printNat _ _ hblank, readNumber_printNat _ _ hblank]
    rfl

/-- **The text tells the figures.** -/
theorem readStats_statsText (average : Float → Bytes) {report : StatsReport}
    (hnames : ∀ entry ∈ report.messagesByLevel,
      ':'.toUInt8 ∉ entry.1 ∧ '\n'.toUInt8 ∉ entry.1) :
    readStats (statsText average report) = some report.figures := by
  have hlevels : ∀ line ∈ report.messagesByLevel.map levelLine, (line != []) = true := by
    intro line hline
    obtain ⟨entry, -, rfl⟩ := List.mem_map.mp hline
    rfl
  have hread : (report.messagesByLevel.map levelLine).filterMap readLevel
      = report.messagesByLevel := by
    rw [List.filterMap_map]
    calc report.messagesByLevel.filterMap (readLevel ∘ levelLine)
      _ = report.messagesByLevel.filterMap some :=
        List.filterMap_congr fun entry hentry => readLevel_levelLine (hnames entry hentry).1
      _ = report.messagesByLevel := List.filterMap_some
  -- the lines up to those of the lengths are the lines read first
  have hfront : ∀ line ∈ headLines report ++ report.messagesByLevel.map levelLine
      ++ [[], ascii "Message length statistics:"], '\n'.toUInt8 ∉ line := by
    intro line hline
    rcases List.mem_append.mp hline with hline | hline
    · rcases List.mem_append.mp hline with hline | hline
      · exact headLines_free report line hline
      · obtain ⟨entry, hentry, rfl⟩ := List.mem_map.mp hline
        exact levelLine_free (hnames entry hentry).2
    · simp only [List.mem_cons, List.not_mem_nil, or_false] at hline
      rcases hline with rfl | rfl
      · decide
      · decide
  have hlengths := readLengths_lengthLines average report.lengths
  generalize hbehind : getlines '\n'.toUInt8 (unlines '\n'.toUInt8
    (lengthLines average report.lengths ++ [frameLine, []])) = behind at hlengths
  have hempty : ∀ line ∈ ([] :: ascii "Message length statistics:" :: behind).head?,
      (line != []) = false := by
    intro line hline
    obtain rfl : [] = line := Option.some.inj hline
    rfl
  rw [readStats, statsText, List.append_assoc _ (lengthLines average report.lengths), unlines_append,
    getlines_unlines_append hfront, hbehind, List.append_assoc, List.append_assoc, headLines]
  dsimp only [List.cons_append, List.nil_append]
  rw [readNumber_self, readNumber_self, takeWhile_span hlevels hempty,
    dropWhile_span hlevels hempty, hread]
  rw [show ([] :: ascii "Message length statistics:" :: behind).drop 2 = behind from rfl, hlengths]
  rfl

end LogMetrics.MetricsApplication
