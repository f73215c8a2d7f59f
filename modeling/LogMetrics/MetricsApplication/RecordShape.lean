import LogMetrics.Logger.LevelName
import LogMetrics.MetricsApplication.Utility

/-!
# What the two record parsers accept

Both parsers accept the texts of one shape, `a[b]c[d]e` with no `[` in `a` and
`c` and no `]` in `b` and `d` (`RecordParts`): each search stops at the first
bracket of its kind, so what it passes over is free of it, and the next search
starts on a bracket of the other kind (`scanBrackets_eq_some_iff`). A text has
the shape in one way only (`RecordParts.text_injective`). The message is `e`
less leading white space; the level is there when `d` names one.

The positions found are in order and inside the text, so the length of the
level is a difference that does not wrap, and both `substr` calls start inside
(`scanBrackets_bounds`).
-/

namespace LogMetrics.MetricsApplication

open LogMetrics.Base
open LogMetrics.Logger (LogLevel LevelName stringToLevel stringToLevel_eq_some_iff)

/-- The parts of a text of the shape `a[b]c[d]e`. -/
@[ext] structure RecordParts where
  before : Bytes
  timestamp : Bytes
  between : Bytes
  level : Bytes
  rest : Bytes
  before_free : '['.toUInt8 ∉ before
  timestamp_free : ']'.toUInt8 ∉ timestamp
  between_free : '['.toUInt8 ∉ between
  level_free : ']'.toUInt8 ∉ level

namespace RecordParts

/-- The text from the level on. -/
def levelText (p : RecordParts) : Bytes := p.level ++ ']'.toUInt8 :: p.rest

/-- The text from the timestamp on. -/
def timestampText (p : RecordParts) : Bytes :=
  p.timestamp ++ ']'.toUInt8 :: (p.between ++ '['.toUInt8 :: p.levelText)

/-- The whole text. -/
def text (p : RecordParts) : Bytes := p.before ++ '['.toUInt8 :: p.timestampText

/-- The positions of the four brackets. -/
def brackets (p : RecordParts) : Brackets where
  firstBracket := p.before.length
  firstClosing := p.before.length + (p.timestamp.length + 1)
  secondBracket := p.before.length + (p.timestamp.length + 1) + (p.between.length + 1)
  secondClosing :=
    p.before.length + (p.timestamp.length + 1) + (p.between.length + 1) + (p.level.length + 1)

/-- A text has the shape in one way. -/
theorem text_injective {p q : RecordParts} (h : p.text = q.text) : p = q := by
  obtain ⟨hbefore, h₁⟩ := append_cons_inj p.before_free q.before_free h
  obtain ⟨htimestamp, h₂⟩ := append_cons_inj p.timestamp_free q.timestamp_free h₁
  obtain ⟨hbetween, h₃⟩ := append_cons_inj p.between_free q.between_free h₂
  obtain ⟨hlevel, hrest⟩ := append_cons_inj p.level_free q.level_free h₃
  exact RecordParts.ext hbefore htimestamp hbetween hlevel hrest

theorem drop_levelStart (p : RecordParts) :
    p.text.drop (p.brackets.secondBracket + 1) = p.levelText := by
  have hfirst : p.text.drop (p.before.length + 1) = p.timestampText := by
    rw [← List.drop_drop, text, List.drop_left, List.drop_one, List.tail_cons]
  have hsecond := drop_add_of_drop_eq (a := p.timestamp ++ ']'.toUInt8 :: (p.between ++ ['['.toUInt8]))
    (b := p.levelText) (hfirst.trans (by simp [timestampText]))
  rw [← hsecond]
  congr 1
  simp only [brackets, List.length_append, List.length_cons, List.length_nil]
  omega

theorem drop_messageStart (p : RecordParts) :
    p.text.drop (p.brackets.secondClosing + 1) = p.rest := by
  have hlevel := drop_add_of_drop_eq (a := p.level ++ [']'.toUInt8]) (b := p.rest)
    (p.drop_levelStart.trans (by simp [levelText]))
  rw [← hlevel]
  congr 1
  simp only [brackets, List.length_append, List.length_cons, List.length_nil]
  omega

/-- What `parse_level_from_log` cuts out. -/
theorem substr_level (p : RecordParts) :
    substr p.text (p.brackets.secondBracket + 1)
      (p.brackets.secondClosing - (p.brackets.secondBracket + 1)) = p.level := by
  have hlen : p.brackets.secondClosing - (p.brackets.secondBracket + 1) = p.level.length := by
    simp only [brackets]
    omega
  rw [substr, p.drop_levelStart, hlen, levelText, List.take_left]

end RecordParts

/-- A search that starts on a bracket of the other kind passes it. -/
theorem find_past {s rest : Bytes} {o c : Byte} {pos i : Nat} (hoc : o ≠ c)
    (hdrop : s.drop pos = o :: rest) (h : find s c pos = some i) :
    ∃ a b, rest = a ++ c :: b ∧ c ∉ a ∧ i = pos + (a.length + 1) := by
  obtain ⟨a, b, hsplit, ha, rfl⟩ := find_eq_some_iff.mp h
  rw [hdrop] at hsplit
  cases a with
  | nil =>
    obtain ⟨heq, -⟩ := List.cons.inj hsplit
    exact absurd heq hoc
  | cons x a =>
    obtain ⟨-, hrest⟩ := List.cons.inj hsplit
    exact ⟨a, b, hrest, fun hmem => ha (List.mem_cons_of_mem _ hmem), by rw [List.length_cons]⟩

/-- **The scan finds the brackets of the shape**, and only there. -/
theorem scanBrackets_eq_some_iff {s : Bytes} {b : Brackets} :
    scanBrackets s = some b ↔ ∃ p : RecordParts, s = p.text ∧ b = p.brackets := by
  constructor
  · intro h
    simp only [scanBrackets, Option.bind_eq_bind, Option.bind_eq_some_iff, Option.pure_def,
      Option.some.injEq] at h
    obtain ⟨i₁, h₁, i₂, h₂, i₃, h₃, i₄, h₄, rfl⟩ := h
    obtain ⟨before, r₁, hs, hbefore, rfl⟩ := find_eq_some_iff.mp h₁
    rw [Nat.zero_add] at h₂ ⊢
    have hdrop₁ : s.drop before.length = '['.toUInt8 :: r₁ := by
      rw [show s = before ++ '['.toUInt8 :: r₁ from hs, List.drop_left]
    obtain ⟨timestamp, r₂, rfl, htimestamp, rfl⟩ := find_past (by decide) hdrop₁ h₂
    have hdrop₂ := drop_add_of_drop_eq (a := '['.toUInt8 :: timestamp) hdrop₁
    obtain ⟨between, r₃, rfl, hbetween, rfl⟩ := find_past (by decide) hdrop₂ h₃
    have hdrop₃ := drop_add_of_drop_eq (a := ']'.toUInt8 :: between) hdrop₂
    obtain ⟨level, rest, rfl, hlevel, rfl⟩ := find_past (by decide) hdrop₃ h₄
    exact ⟨⟨before, timestamp, between, level, rest, hbefore, htimestamp, hbetween, hlevel⟩, hs, rfl⟩
  · rintro ⟨p, rfl, rfl⟩
    exact scanBrackets_header p.before_free p.timestamp_free p.between_free p.level_free

theorem scanBrackets_text (p : RecordParts) : scanBrackets p.text = some p.brackets :=
  scanBrackets_eq_some_iff.mpr ⟨p, rfl, rfl⟩

/-- A text that the scan rejects does not have the shape. -/
theorem ne_text_of_scanBrackets {s : Bytes} (h : scanBrackets s = none) (p : RecordParts) :
    s ≠ p.text := by
  rintro rfl
  rw [scanBrackets_text] at h
  exact absurd h (by simp)

/-- What `parse_message_from_log` makes of a text of the shape. -/
theorem parseMessageFromLog_text (p : RecordParts) :
    parseMessageFromLog p.text = some (p.rest.dropWhile isspaceChar) := by
  rw [parseMessageFromLog_eq, scanBrackets_text, Option.map_some, p.drop_messageStart]

/-- What `parse_level_from_log` makes of a text of the shape. -/
theorem parseLevelFromLog_text (p : RecordParts) :
    parseLevelFromLog p.text = stringToLevel p.level := by
  rw [parseLevelFromLog, scanBrackets_text]
  simp only [Option.bind_eq_bind, Option.bind_some, p.substr_level]

/-- A text either has the shape, or is rejected by the scan. -/
theorem shape_or_none (s : Bytes) : (∃ p : RecordParts, s = p.text) ∨ scanBrackets s = none := by
  cases hscan : scanBrackets s with
  | none => exact .inr rfl
  | some b =>
    obtain ⟨p, hs, -⟩ := scanBrackets_eq_some_iff.mp hscan
    exact .inl ⟨p, hs⟩

/-- The positions are in order and inside the text: `level_length` is not
negative, `level_start` and `message_start` are not behind the end. -/
theorem scanBrackets_bounds {s : Bytes} {b : Brackets} (h : scanBrackets s = some b) :
    b.secondBracket + 1 ≤ b.secondClosing ∧ b.secondBracket + 1 ≤ s.length
      ∧ b.secondClosing + 1 ≤ s.length
      ∧ skipSpace (b.secondClosing + 1) (s.drop (b.secondClosing + 1)) ≤ s.length := by
  obtain ⟨p, rfl, rfl⟩ := scanBrackets_eq_some_iff.mp h
  have hlen : p.text.length = p.brackets.secondClosing + 1 + p.rest.length := by
    simp only [RecordParts.text, RecordParts.timestampText, RecordParts.levelText,
      RecordParts.brackets, List.length_append, List.length_cons]
    omega
  have horder : p.brackets.secondBracket + 1 ≤ p.brackets.secondClosing := by
    simp only [RecordParts.brackets]
    omega
  refine ⟨horder, by omega, by omega, ?_⟩
  rw [skipSpace_eq, p.drop_messageStart, hlen]
  have htake := (List.takeWhile_prefix isspaceChar (l := p.rest)).length_le
  omega

/-- **The two parsers accept one common shape.** -/
theorem parsers_shape (s : Bytes) :
    ((parseMessageFromLog s).isSome ↔ ∃ p : RecordParts, s = p.text)
      ∧ (∀ p q : RecordParts, s = p.text → s = q.text → p = q)
      ∧ (∀ p : RecordParts, s = p.text →
          parseMessageFromLog s = some (p.rest.dropWhile isspaceChar))
      ∧ (∀ level, parseLevelFromLog s = some level
          ↔ ∃ p : RecordParts, s = p.text ∧ LevelName p.level level)
      ∧ ((parseLevelFromLog s).isSome → (parseMessageFromLog s).isSome)
      ∧ ∀ b, scanBrackets s = some b →
          b.secondBracket + 1 ≤ b.secondClosing ∧ b.secondBracket + 1 ≤ s.length
            ∧ b.secondClosing + 1 ≤ s.length
            ∧ skipSpace (b.secondClosing + 1) (s.drop (b.secondClosing + 1)) ≤ s.length := by
  have hunique : ∀ p q : RecordParts, s = p.text → s = q.text → p = q := fun p q hp hq =>
    RecordParts.text_injective (hp.symm.trans hq)
  rcases shape_or_none s with ⟨p, hp⟩ | hnone
  · have hmessage : parseMessageFromLog s = some (p.rest.dropWhile isspaceChar) := by
      rw [hp, parseMessageFromLog_text]
    have hlevel : parseLevelFromLog s = stringToLevel p.level := by
      rw [hp, parseLevelFromLog_text]
    refine ⟨⟨fun _ => ⟨p, hp⟩, fun _ => by rw [hmessage]; rfl⟩, hunique, fun q hq => ?_,
      fun level => ?_, fun _ => by rw [hmessage]; rfl, fun b => scanBrackets_bounds⟩
    · rw [hunique q p hq hp]
      exact hmessage
    · rw [hlevel, stringToLevel_eq_some_iff]
      constructor
      · exact fun h => ⟨p, hp, h⟩
      · rintro ⟨q, hq, hname⟩
        rwa [hunique p q hp hq]
  · have hnot := ne_text_of_scanBrackets hnone
    have hmessage : parseMessageFromLog s = none := by
      rw [parseMessageFromLog_eq, hnone]
      rfl
    have hlevel : parseLevelFromLog s = none := by
      rw [parseLevelFromLog, hnone]
      rfl
    refine ⟨⟨fun h => ?_, ?_⟩, hunique, fun p hp => absurd hp (hnot p),
      fun level => ⟨fun h => ?_, ?_⟩, fun h => ?_, fun b => scanBrackets_bounds⟩
    · rw [hmessage] at h
      exact absurd h (by simp)
    · rintro ⟨p, hp⟩
      exact absurd hp (hnot p)
    · rw [hlevel] at h
      exact absurd h (by simp)
    · rintro ⟨p, hp, -⟩
      exact absurd hp (hnot p)
    · rw [hlevel] at h
      exact absurd h (by simp)

end LogMetrics.MetricsApplication
