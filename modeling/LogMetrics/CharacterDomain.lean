import LogMetrics.Cctype
import LogMetrics.MetricsApplication.MessageProcessor
import LogMetrics.MetricsApplication.RecordShape
import LogMetrics.TestApplication.CommandGrammar

/-!
# Which bytes are classified

`process_message` asks `std::isspace` where the message of a record starts and
`::tolower` for the lower case of its level; `parse_command` asks `::tolower`
for the lower case of the last word of a line. None of the three casts its
`char` to `unsigned char` first, so on a text that is not ASCII a call can be
out of the domain of `<cctype>`.

The functions between these two entries and the calls are written once more,
with a C library to ask; each has the source's branches, and one lemma that
says which bytes it asks about and that it then returns what the function of
the same name returns. The bytes are few: of a record `a[b]c[d]e` those of `d`
and the first of `e` behind its white space (`RecordBytes`), of a line those
behind its last blank (`LastWordBytes`). `calls_defined_iff`: the calls are in
the domain exactly if these bytes are `Plain`.
-/

namespace LogMetrics

open LogMetrics.Base
open LogMetrics.Base.Logged (Exact)
open LogMetrics.Logger (LogLevel)
open LogMetrics.MetricsApplication
open LogMetrics.TestApplication (ParsedCommand trim split beforeLastBlank isBlank trim_eq_strip
  getLast?_split toNat_le_of_isBlank)

/-- The comparisons behind the lower case, in `string_to_level` and again in
`parse_level`. -/
def levelNamed (lowerLevel : Bytes) : Option LogLevel :=
  if lowerLevel = ascii "debug" then some .debug
  else if lowerLevel = ascii "info" then some .info
  else if lowerLevel = ascii "warning" then some .warning
  else if lowerLevel = ascii "error" then some .error
  else if lowerLevel = ascii "fatal" then some .fatal
  else none

/-- What `process_message` does with a payload that has been parsed. -/
def MetricsApplication.MessageProcessor.takeParsed (p : MessageProcessor) (logMessage : Bytes)
    (clock : Readings) :
    Except Bytes (Bytes × LogLevel) → MessageProcessor × List ProcessorEvent
  | .error text => (p, [.log logMessage, .parseError text])
  | .ok (message, level) =>
    let p := { p with
      metricsCollector := MetricsCollector.addMessage message level clock.added p.metricsCollector
      lastStatsPrintTime := clock.reset }
    let (p, events) := p.checkCount clock
    (p, [.log logMessage, .added message level, .lastWritten .receiver clock.reset] ++ events)

namespace Cctype

/-! ## The programs, with a library to ask -/

/-- `string_to_level`. -/
def stringToLevel (lib : Cctype) (levelStr : Bytes) : Logged CtypeCall (Option LogLevel) := do
  let levelStr ← lib.transformTolower levelStr
  return levelNamed levelStr

/-- `parse_level_from_log`. -/
def parseLevelFromLog (lib : Cctype) (logMessage : Bytes) :
    Logged CtypeCall (Option LogLevel) :=
  match scanBrackets logMessage with
  | none => return none
  | some b =>
    let levelStart := b.secondBracket + 1
    let levelLength := b.secondClosing - levelStart
    lib.stringToLevel (substr logMessage levelStart levelLength)

/-- The loop that moves `message_start` over white space; `rest` is the text
from `message_start` on. -/
def skipSpace (lib : Cctype) (messageStart : Nat) : (rest : Bytes) → Logged CtypeCall Nat
  | [] => return messageStart
  | c :: rest => do
    if ← lib.isspaceChar c then lib.skipSpace (messageStart + 1) rest
    else return messageStart

/-- `parse_message_from_log`. -/
def parseMessageFromLog (lib : Cctype) (logMessage : Bytes) : Logged CtypeCall (Option Bytes) :=
  match scanBrackets logMessage with
  | none => return none
  | some b => do
    let messageStart := b.secondClosing + 1
    let messageStart ← lib.skipSpace messageStart (logMessage.drop messageStart)
    return if messageStart ≥ logMessage.length then some [] else some (logMessage.drop messageStart)

/-- The two parsers, in the order `process_message` asks them. -/
def parsePayload (lib : Cctype) (logMessage : Bytes) :
    Logged CtypeCall (Except Bytes (Bytes × LogLevel)) := do
  match ← lib.parseMessageFromLog logMessage with
  | none => return .error (ascii "Error parsing message from log")
  | some message =>
    match ← lib.parseLevelFromLog logMessage with
    | none => return .error (ascii "Error parsing level from log")
    | some level => return .ok (message, level)

/-- `process_message`. -/
def processMessage (lib : Cctype) (p : MessageProcessor) (logMessage : Bytes) (clock : Readings) :
    Logged CtypeCall (MessageProcessor × List ProcessorEvent) := do
  let parsed ← lib.parsePayload logMessage
  return p.takeParsed logMessage clock parsed

/-- `CommandParser::parse_level`. -/
def parseLevel (lib : Cctype) (levelStr : Bytes) : Logged CtypeCall (Option LogLevel) := do
  let lowerLevel ← lib.transformTolower levelStr
  return levelNamed lowerLevel

/-- `CommandParser::parse_command`. -/
def parseCommand (lib : Cctype) (input : Bytes) : Logged CtypeCall (Option ParsedCommand) :=
  let trimmedInput := trim input
  if trimmedInput.isEmpty then return none
  else if trimmedInput = ascii "exit" ∨ trimmedInput = ascii "quit" then
    return some { type := .exit }
  else if trimmedInput = ascii "help" then return some { type := .help }
  else
    let tokens := split trimmedInput ' '.toUInt8
    match tokens.getLast? with
    | none => return none
    | some levelStr => do
      match ← lib.parseLevel levelStr with
      | some level =>
        if tokens.length > 1 then
          return some {
            type := .logMessage, message := trim (beforeLastBlank trimmedInput), level := some level }
        else return some { type := .logMessage, message := trimmedInput }
      | none => return some { type := .logMessage, message := trimmedInput }

end Cctype

/-! ## The bytes that are asked about -/

/-- Of a record `a[b]c[d]e`, the first byte of `e` behind its white space and
all of `d` are `good`. -/
def RecordBytes (good : Byte → Prop) (payload : Bytes) : Prop :=
  ∀ q : RecordParts, payload = q.text →
    (∀ c ∈ (q.rest.dropWhile isspaceChar).head?, good c) ∧ ∀ c ∈ q.level, good c

/-- What follows the last `' '` of a line, less the blanks at its end; all of a
line without one, less those at both ends. -/
def lastWord (line : Bytes) : Bytes := (strip isBlank line).rtakeWhile (· != ' '.toUInt8)

/-- The last word of a line consists of `good` bytes. -/
def LastWordBytes (good : Byte → Prop) (line : Bytes) : Prop := ∀ c ∈ lastWord line, good c

theorem recordBytes_text {good : Byte → Prop} (p : RecordParts) :
    RecordBytes good p.text
      ↔ (∀ c ∈ (p.rest.dropWhile isspaceChar).head?, good c) ∧ ∀ c ∈ p.level, good c := by
  constructor
  · intro h
    exact h p rfl
  · intro h q hq
    rwa [← RecordParts.text_injective hq]

/-- A payload the scan rejects has no such bytes. -/
theorem recordBytes_of_none {good : Byte → Prop} {payload : Bytes}
    (h : scanBrackets payload = none) : RecordBytes good payload := by
  intro q hq
  exact absurd hq (ne_text_of_scanBrackets h q)

theorem toNat_lt_of_isspaceChar (c : Byte) : isspaceChar c = true → c.toNat < 128 :=
  forall_byte (P := fun c => isspaceChar c = true → c.toNat < 128) (by decide +kernel) c

/-- A text and what `trim` leaves of it differ in blanks, which are ASCII. -/
theorem forall_mem_trim {good : Byte → Prop} (hascii : ∀ c : Byte, c.toNat < 128 → good c)
    (w : Bytes) : (∀ c ∈ trim w, good c) ↔ ∀ c ∈ w, good c := by
  obtain ⟨a, b, hw, ha, hb, -⟩ := exists_strip isBlank w
  have hblank : ∀ c, isBlank c = true → good c := by
    intro c hc
    have hsmall := toNat_le_of_isBlank c hc
    exact hascii c (by omega)
  rw [← trim_eq_strip] at hw
  constructor
  · intro h c hc
    rw [hw, List.mem_append, List.mem_append] at hc
    rcases hc with hfront | hmiddle | hback
    · exact hblank c (ha c hfront)
    · exact h c hmiddle
    · exact hblank c (hb c hback)
  · intro h c hc
    exact h c (by rw [hw]; simp [hc])

/-- The commands that are a word of their own. -/
theorem forall_mem_word {good : Byte → Prop} (hascii : ∀ c : Byte, c.toNat < 128 → good c)
    {t : Bytes} (ht : (t = ascii "exit" ∨ t = ascii "quit") ∨ t = ascii "help") :
    ∀ c ∈ t, good c := by
  have hsmall : t.all (fun c => c.toNat < 128) = true := by
    rcases ht with (rfl | rfl) | rfl
    · decide
    · decide
    · decide
  intro c hc
  have hc' := List.all_eq_true.mp hsmall c hc
  exact hascii c (of_decide_eq_true hc')

namespace Cctype.Agrees

variable {lib : Cctype} {P : CtypeCall → Prop} {good : Byte → Prop}

/-! ## The receiver -/

theorem stringToLevel (h : lib.Agrees P good) (levelStr : Bytes) :
    Exact P (lib.stringToLevel levelStr) (∀ c ∈ levelStr, good c)
      (Logger.stringToLevel levelStr) :=
  (h.transformTolower levelStr).bind_pure levelNamed

/-- The skip loop asks about white space, and about the byte it stops at. -/
theorem skipSpace (h : lib.Agrees P good) (messageStart : Nat) (rest : Bytes) :
    Exact P (lib.skipSpace messageStart rest)
      (∀ c ∈ (rest.dropWhile LogMetrics.isspaceChar).head?, good c)
      (MetricsApplication.skipSpace messageStart rest) := by
  induction rest generalizing messageStart with
  | nil =>
    refine (Exact.pure messageStart).congr ?_
    simp
  | cons c rest ih =>
    rw [Cctype.skipSpace, MetricsApplication.skipSpace]
    by_cases hspace : LogMetrics.isspaceChar c = true
    · have hgood : good c := h.good_ascii c (toNat_lt_of_isspaceChar c hspace)
      rw [if_pos hspace, List.dropWhile_cons_of_pos hspace]
      refine ((h.isspaceChar c).bind fun _ => ?_).congr (and_iff_right hgood)
      rw [if_pos hspace]
      exact ih (messageStart + 1)
    · rw [if_neg hspace, List.dropWhile_cons_of_neg hspace]
      -- the byte the loop stops at has been asked about too
      have hstop : good c ∧ True ↔ ∀ c' ∈ (c :: rest).head?, good c' := by simp
      refine ((h.isspaceChar c).bind fun _ => ?_).congr hstop
      rw [if_neg hspace]
      exact Exact.pure messageStart

theorem parseMessageFromLog (h : lib.Agrees P good) (p : RecordParts) :
    Exact P (lib.parseMessageFromLog p.text)
      (∀ c ∈ (p.rest.dropWhile LogMetrics.isspaceChar).head?, good c)
      (MetricsApplication.parseMessageFromLog p.text) := by
  have hloop := (h.skipSpace (p.brackets.secondClosing + 1) p.rest).bind_pure fun messageStart =>
    if messageStart ≥ p.text.length then some [] else some (p.text.drop messageStart)
  rw [← p.drop_messageStart] at hloop ⊢
  rw [Cctype.parseMessageFromLog, MetricsApplication.parseMessageFromLog, scanBrackets_text]
  exact hloop

theorem parseLevelFromLog (h : lib.Agrees P good) (p : RecordParts) :
    Exact P (lib.parseLevelFromLog p.text) (∀ c ∈ p.level, good c)
      (MetricsApplication.parseLevelFromLog p.text) := by
  rw [Cctype.parseLevelFromLog, MetricsApplication.parseLevelFromLog, scanBrackets_text]
  simp only [Option.bind_eq_bind, Option.bind_some, p.substr_level]
  exact h.stringToLevel p.level

/-- A payload's bytes are asked about in both parsers. -/
theorem parsePayload (h : lib.Agrees P good) (payload : Bytes) :
    Exact P (lib.parsePayload payload) (RecordBytes good payload)
      (MetricsApplication.parsePayload payload) := by
  rcases shape_or_none payload with ⟨p, rfl⟩ | hnone
  · refine Exact.congr ?_ (recordBytes_text p).symm
    have hmessage := h.parseMessageFromLog p
    rw [parseMessageFromLog_text] at hmessage
    rw [Cctype.parsePayload, MetricsApplication.parsePayload, parseMessageFromLog_text]
    refine hmessage.bind fun _ => ?_
    refine ((h.parseLevelFromLog p).bind fun _ => ?_).congr (and_iff_left trivial)
    dsimp only
    cases MetricsApplication.parseLevelFromLog p.text with
    | none => exact Exact.pure _
    | some level => exact Exact.pure _
  · have hpayload : lib.parsePayload payload = pure (MetricsApplication.parsePayload payload) := by
      rw [Cctype.parsePayload, MetricsApplication.parsePayload, Cctype.parseMessageFromLog,
        parseMessageFromLog_eq, hnone]
      rfl
    rw [hpayload]
    exact (Exact.pure _).congr (iff_of_true trivial (recordBytes_of_none hnone))

/-- **What `process_message` asks about.** -/
theorem processMessage (h : lib.Agrees P good) (p : MessageProcessor) (payload : Bytes)
    (clock : Readings) :
    Exact P (lib.processMessage p payload clock) (RecordBytes good payload)
      (p.processMessage payload clock) := by
  -- what follows the parsers asks about nothing
  have hparsed := (h.parsePayload payload).bind_pure (p.takeParsed payload clock)
  exact hparsed

/-! ## The sender -/

theorem parseLevel (h : lib.Agrees P good) (levelStr : Bytes) :
    Exact P (lib.parseLevel levelStr) (∀ c ∈ levelStr, good c)
      (TestApplication.parseLevel levelStr) :=
  (h.transformTolower levelStr).bind_pure levelNamed

/-- **What `parse_command` asks about.** -/
theorem parseCommand (h : lib.Agrees P good) (line : Bytes) :
    Exact P (lib.parseCommand line) (LastWordBytes good line)
      (TestApplication.parseCommand line) := by
  obtain ⟨-, -, -, -, -, ht⟩ := exists_strip isBlank line
  rw [Cctype.parseCommand, TestApplication.parseCommand, LastWordBytes, lastWord, trim_eq_strip]
  generalize strip isBlank line = t at ht ⊢
  by_cases hempty : t = []
  · subst hempty
    exact (Exact.pure none).congr (by simp)
  · have hisEmpty : t.isEmpty = false := by simpa using hempty
    simp only [hisEmpty, Bool.false_eq_true, if_false]
    have hword (hwords : (t = ascii "exit" ∨ t = ascii "quit") ∨ t = ascii "help") :
        True ↔ ∀ c ∈ t.rtakeWhile (· != ' '.toUInt8), good c := by
      refine iff_of_true trivial fun c hc => ?_
      exact forall_mem_word h.good_ascii hwords c ((List.rtakeWhile_suffix _ _).mem hc)
    by_cases hexit : t = ascii "exit" ∨ t = ascii "quit"
    · rw [if_pos hexit, if_pos hexit]
      exact (Exact.pure _).congr (hword (Or.inl hexit))
    · rw [if_neg hexit, if_neg hexit]
      by_cases hhelp : t = ascii "help"
      · rw [if_pos hhelp, if_pos hhelp]
        exact (Exact.pure _).congr (hword (Or.inr hhelp))
      · rw [if_neg hhelp, if_neg hhelp, getLast?_split ht hempty]
        have hlevel := h.parseLevel (trim (t.rtakeWhile (· != ' '.toUInt8)))
        refine (hlevel.bind fun _ => ?_).congr
          ((and_iff_left trivial).trans (forall_mem_trim h.good_ascii _))
        -- what is made of the level asks about no byte
        dsimp only
        cases TestApplication.parseLevel (trim (t.rtakeWhile (· != ' '.toUInt8))) with
        | none => exact Exact.pure _
        | some level =>
          dsimp only
          split
          · exact Exact.pure _
          · exact Exact.pure _

end Cctype.Agrees

/-! ## The domain -/

/-- With the library of `Bytes`, the programs with a library to ask are the
programs. -/
theorem cLocale_value (p : MessageProcessor) (payload : Bytes) (clock : Readings) (line : Bytes) :
    (cLocale.processMessage p payload clock).value = p.processMessage payload clock
      ∧ (cLocale.parseCommand line).value = TestApplication.parseCommand line := by
  have hpayload := Cctype.agrees_cLocale.processMessage p payload clock
  have hline := Cctype.agrees_cLocale.parseCommand line
  constructor
  · exact hpayload.value_eq fun q _ => ⟨fun c _ => trivial, fun c _ => trivial⟩
  · exact hline.value_eq fun c _ => trivial

/-- Where every call is in the domain, any library gives the same result. -/
theorem value_of_calls_defined (lib : Cctype) (p : MessageProcessor) (payload : Bytes)
    (clock : Readings) (line : Bytes) :
    (RecordBytes Plain payload →
        (lib.processMessage p payload clock).value = p.processMessage payload clock)
      ∧ (LastWordBytes Plain line →
        (lib.parseCommand line).value = TestApplication.parseCommand line) := by
  constructor
  · exact (lib.agrees.processMessage p payload clock).value_eq
  · exact (lib.agrees.parseCommand line).value_eq

/-- **The calls are in the domain exactly if these few bytes are.** Whatever
the library does, `process_message` and `parse_command` hand it `EOF` or a
value from 0 to 255 in every call exactly if the bytes they ask about have no
value from 128 to 254. -/
theorem calls_defined_iff (lib : Cctype) :
    (∀ (p : MessageProcessor) (payload : Bytes) (clock : Readings),
        (∀ e ∈ (lib.processMessage p payload clock).log, e.Defined) ↔ RecordBytes Plain payload)
      ∧ ∀ line : Bytes,
        (∀ e ∈ (lib.parseCommand line).log, e.Defined) ↔ LastWordBytes Plain line := by
  constructor
  · intro p payload clock
    exact (lib.agrees.processMessage p payload clock).allLogged_iff
  · intro line
    exact (lib.agrees.parseCommand line).allLogged_iff

/-- A record whose message is the Cyrillic letter pe, in UTF-8. -/
def cyrillicRecord : Bytes := ascii "[t] [INFO] " ++ [0xD0, 0xBF]

/-- The letter, typed on a line of its own. -/
def cyrillicLine : Bytes := [0xD0, 0xBF]

/-- Both entries call out of the domain: `std::isspace(-48)` for the record,
`::tolower(-48)` for the line. -/
theorem cyrillic_out_of_domain :
    (¬∀ (lib : Cctype) (p : MessageProcessor) (payload : Bytes) (clock : Readings),
        ∀ e ∈ (lib.processMessage p payload clock).log, e.Defined)
      ∧ ¬∀ (lib : Cctype) (line : Bytes), ∀ e ∈ (lib.parseCommand line).log, e.Defined := by
  constructor
  · intro h
    have hcall : CtypeCall.isspace (-48) ∈ (cLocale.processMessage (.create 1 1 0) cyrillicRecord
        ⟨0, 0, 0, 0⟩).log := by decide +kernel
    exact absurd (h _ _ _ _ _ hcall) (by decide)
  · intro h
    have hcall : CtypeCall.tolower (-48) ∈ (cLocale.parseCommand cyrillicLine).log := by
      decide +kernel
    exact absurd (h _ _ _ hcall) (by decide)

end LogMetrics
