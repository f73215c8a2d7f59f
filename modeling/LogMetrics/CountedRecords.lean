import LogMetrics.Base.Occurrences
import LogMetrics.Base.Strip
import LogMetrics.Framing
import LogMetrics.Logger.Timestamp
import LogMetrics.MetricsApplication.CountTrigger
import LogMetrics.MetricsApplication.RecordShape

/-!
# Which records are counted

`framed_iff` says when the payloads are the records. Here the stream is cut
anywhere, and it is told what the parsers then make of a payload, as long as
no message has a `[` in it.

In such a stream every `[` opens the timestamp or the level of a record
(`bracket_place`). A payload is read by its first two: so it counts for the
first record that begins in it, if that record's header is inside and the
bytes in front of it are the end of a message (`piece_counted`); every record
behind that one becomes part of its message. A payload that begins inside a
header takes the next timestamp for a level, and is rejected, whatever records
follow in it.

So the receiver can miss records but not make any up: the levels it counts are
a subsequence of those of the records sent (`counted_sublist`).
-/

namespace LogMetrics

open LogMetrics.Base
open LogMetrics.Logger (LogLevel LevelName levelToString stringToLevel stringToLevel_levelToString
  stringToLevel_eq_some_iff levelToString_plain formatMessage getCurrentTimestamp timestamp_digits)
open LogMetrics.MetricsApplication

/-! ## Plain records -/

/-- A timestamp without brackets that is not the name of a level. -/
structure PlainTimestamp (timestamp : Bytes) : Prop where
  opening_free : '['.toUInt8 ∉ timestamp
  closing_free : ']'.toUInt8 ∉ timestamp
  unnamed : stringToLevel timestamp = none

/-- So is every timestamp the logger makes, when `std::put_time` puts out no
bracket: there is a point in it. -/
theorem timestamp_plain {putTime : Int → Bytes}
    (hput : ∀ second, '['.toUInt8 ∉ putTime second ∧ ']'.toUInt8 ∉ putTime second) (now : Int) :
    PlainTimestamp (getCurrentTimestamp putTime now) := by
  obtain ⟨digits, htext, -, hdigits, -⟩ := timestamp_digits putTime now
  rw [htext]
  have hplain (c : Byte) (hc : isdigit c = false) (hpoint : c ∉ ascii ".")
      (hfront : ∀ second, c ∉ putTime second) :
      c ∉ putTime (Logger.floorSeconds now) ++ ascii "." ++ digits := by
    intro hmem
    rcases List.mem_append.mp hmem with hmem | hmem
    · rcases List.mem_append.mp hmem with hmem | hmem
      · exact hfront _ hmem
      · exact hpoint hmem
    · exact absurd ((hdigits c hmem).symm.trans hc) (by decide)
  refine ⟨hplain _ (by decide) (by decide) fun second => (hput second).1,
    hplain _ (by decide) (by decide) fun second => (hput second).2, ?_⟩
  cases hname : stringToLevel (putTime (Logger.floorSeconds now) ++ ascii "." ++ digits) with
  | none => rfl
  | some level =>
    have hmem : '.'.toUInt8 ∈ putTime (Logger.floorSeconds now) ++ ascii "." ++ digits :=
      List.mem_append_left _ (List.mem_append_right _ (by decide))
    have hletter := (stringToLevel_eq_some_iff.mp hname).letters.2 _ hmem
    exact absurd hletter.1 (by decide)

namespace Record

/-- No bracket of the record's text opens anything but a field. -/
structure Plain (r : Record) : Prop where
  timestamp : PlainTimestamp r.timestamp
  message : '['.toUInt8 ∉ r.message

/-- The text between the two brackets that open the fields. -/
def timestampField (r : Record) : Bytes := r.timestamp ++ ']'.toUInt8 :: ascii " "

/-- The text behind the second of them. -/
def levelField (r : Record) : Bytes := levelToString r.level ++ ']'.toUInt8 :: (ascii " " ++ r.message)

/-- The text up to the bracket that closes the level. -/
def header (r : Record) : Bytes :=
  '['.toUInt8 :: (r.timestampField ++ '['.toUInt8 :: (levelToString r.level ++ [']'.toUInt8]))

variable {r : Record}

theorem text_eq (r : Record) :
    r.text = '['.toUInt8 :: (r.timestampField ++ '['.toUInt8 :: r.levelField) := by
  rw [text, formatMessage_eq]
  simp [timestampField, levelField]

theorem Plain.timestampField_free (h : r.Plain) : '['.toUInt8 ∉ r.timestampField := by
  intro hmem
  rcases List.mem_append.mp hmem with hmem | hmem
  · exact h.timestamp.opening_free hmem
  · exact absurd hmem (by decide)

theorem Plain.levelField_free (h : r.Plain) : '['.toUInt8 ∉ r.levelField := by
  intro hmem
  rcases List.mem_append.mp hmem with hmem | hmem
  · exact (levelToString_plain r.level).1 hmem
  · rcases List.mem_cons.mp hmem with heq | hmem
    · exact absurd heq (by decide)
    · rcases List.mem_append.mp hmem with hmem | hmem
      · exact absurd hmem (by decide)
      · exact h.message hmem

end Record

theorem stream_cons (r : Record) (records : List Record) :
    stream (r :: records)
      = '['.toUInt8 :: (r.timestampField ++ '['.toUInt8 :: (r.levelField ++ stream records)) := by
  show r.text ++ stream records = _
  rw [r.text_eq]
  simp

theorem stream_append (records records' : List Record) :
    stream (records ++ records') = stream records ++ stream records' := by
  simp [stream]

/-! ## The brackets of the stream -/

/-- In front of the first `c` of the rest there is all of a text without `c`. -/
theorem past_free {α : Type} {c : α} {a b s t : List α} (ha : c ∉ a)
    (h : s ++ c :: t = a ++ b) : ∃ s', s = a ++ s' ∧ s' ++ c :: t = b := by
  rcases List.append_eq_append_iff.mp h with ⟨mid, hmid, hrest⟩ | ⟨mid, hmid, hrest⟩
  · cases mid with
    | nil =>
      refine ⟨[], ?_, hrest⟩
      rw [hmid, List.append_nil, List.append_nil]
    | cons x mid =>
      obtain ⟨rfl, -⟩ := List.cons.inj hrest
      exact absurd (hmid ▸ List.mem_append_right _ (List.mem_cons_self ..)) ha
  · exact ⟨mid, hmid, hrest.symm⟩

/-- **Every `[` opens a field of a record**, its timestamp or its level. -/
theorem bracket_place {records : List Record} (hplain : ∀ r ∈ records, r.Plain) {w x : Bytes}
    (h : w ++ '['.toUInt8 :: x = stream records) :
    ∃ pre r post, records = pre ++ r :: post
      ∧ (w = stream pre
        ∨ w = stream pre ++ '['.toUInt8 :: r.timestampField ∧ x = r.levelField ++ stream post) := by
  induction records generalizing w with
  | nil => exact absurd h (by simp [stream])
  | cons r records ih =>
    have hr := hplain r (List.mem_cons_self ..)
    rw [stream_cons] at h
    cases w with
    | nil => exact ⟨[], r, records, rfl, .inl rfl⟩
    | cons y w =>
      obtain ⟨rfl, htail⟩ := List.cons.inj h
      replace htail : w ++ '['.toUInt8 :: x
        = r.timestampField ++ '['.toUInt8 :: (r.levelField ++ stream records) := htail
      by_cases hmem : '['.toUInt8 ∈ w
      · -- past both brackets of this record, and so in the stream behind it
        obtain ⟨w₁, w₂, rfl, hfirst⟩ := List.eq_append_cons_of_mem hmem
        rw [List.append_assoc, List.cons_append] at htail
        obtain ⟨rfl, hbehind⟩ := append_cons_inj hfirst hr.timestampField_free htail
        obtain ⟨w₃, rfl, hrest⟩ := past_free hr.levelField_free hbehind
        obtain ⟨pre, r', post, rfl, hplace⟩ :=
          ih (fun q hq => hplain q (List.mem_cons_of_mem _ hq)) hrest
        refine ⟨r :: pre, r', post, rfl, ?_⟩
        rw [stream_cons]
        rcases hplace with rfl | ⟨rfl, hx⟩
        · exact .inl rfl
        · exact .inr ⟨by simp, hx⟩
      · obtain ⟨rfl, hx⟩ := append_cons_inj hmem hr.timestampField_free htail
        exact ⟨[], r, records, rfl, .inr ⟨rfl, hx⟩⟩

/-! ## What a payload counts for -/

/-- A payload is read by the first two `[` in it. -/
theorem accepted_header {r : Record} (hr : r.Plain) {tail : Bytes} (htail : '['.toUInt8 ∉ tail)
    (text : Bytes) :
    accepted? (tail ++ (r.header ++ text)) = some (text.dropWhile isspaceChar, r.level) := by
  have hshape : tail ++ (r.header ++ text)
      = RecordParts.text ⟨tail, r.timestamp, ascii " ", levelToString r.level, text, htail,
          hr.timestamp.closing_free, by decide, (levelToString_plain r.level).2.1⟩ := by
    simp [Record.header, Record.timestampField, RecordParts.text, RecordParts.timestampText,
      RecordParts.levelText]
  unfold accepted?
  rw [hshape, parseMessageFromLog_text, parseLevelFromLog_text]
  simp only [Option.bind_eq_bind, Option.bind_some, stringToLevel_levelToString]
  rfl

/-- A payload that is accepted has the shape, and names its level. -/
theorem accepted_shape {payload message : Bytes} {level : LogLevel}
    (h : accepted? payload = some (message, level)) :
    ∃ p : RecordParts, payload = p.text ∧ stringToLevel p.level = some level
      ∧ message = p.rest.dropWhile isspaceChar := by
  rcases shape_or_none payload with ⟨p, rfl⟩ | hnone
  · refine ⟨p, rfl, ?_⟩
    unfold accepted? at h
    rw [parseMessageFromLog_text, parseLevelFromLog_text] at h
    cases hlevel : stringToLevel p.level with
    | none => rw [hlevel] at h; exact absurd h (by simp)
    | some level' =>
      rw [hlevel] at h
      cases h
      exact ⟨rfl, rfl⟩
  · unfold accepted? at h
    rw [parseMessageFromLog_eq, hnone] at h
    exact absurd h (by simp)

/-- Behind a level, the text up to the next `]` that follows a `[` is no level
but a timestamp. -/
theorem between_fields {r : Record} {post : List Record} (hplain : ∀ q ∈ post, q.Plain)
    (hr : r.Plain) (p : RecordParts) {level : LogLevel} (hlevel : stringToLevel p.level = some level)
    (after : Bytes) :
    p.between ++ '['.toUInt8 :: (p.levelText ++ after)
      ≠ ascii " " ++ (r.message ++ stream post) := by
  intro h
  have hmessage : '['.toUInt8 ∉ ascii " " ++ r.message := by
    intro hmem
    rcases List.mem_append.mp hmem with hmem | hmem
    · exact absurd hmem (by decide)
    · exact hr.message hmem
  cases post with
  | nil =>
    have hmem : '['.toUInt8 ∈ ascii " " ++ (r.message ++ stream []) := by
      rw [← h]
      simp
    rw [show stream [] = [] from rfl, List.append_nil] at hmem
    exact hmessage hmem
  | cons q post =>
    have hq := hplain q (List.mem_cons_self ..)
    rw [stream_cons, ← List.append_assoc] at h
    obtain ⟨-, htimestamp⟩ := append_cons_inj p.between_free hmessage h
    rw [RecordParts.levelText, Record.timestampField] at htimestamp
    simp only [List.append_assoc, List.cons_append] at htimestamp
    obtain ⟨hname, -⟩ := append_cons_inj p.level_free hq.timestamp.closing_free htimestamp
    rw [hname, hq.timestamp.unnamed] at hlevel
    exact absurd hlevel (by simp)

/-- **What a piece of the stream counts for.** The record, if there is one,
that is the first to begin in it, with its header inside; what is in front of
it has no bracket, so is the end of a message or nothing. Its message is all
the text behind the header. -/
theorem piece_counted {records : List Record} (hplain : ∀ r ∈ records, r.Plain)
    {before payload after : Bytes} (hpiece : before ++ (payload ++ after) = stream records)
    (message : Bytes) (level : LogLevel) :
    accepted? payload = some (message, level)
      ↔ ∃ pre r post tail text, records = pre ++ r :: post ∧ before ++ tail = stream pre
          ∧ '['.toUInt8 ∉ tail ∧ payload = tail ++ (r.header ++ text)
          ∧ level = r.level ∧ message = text.dropWhile isspaceChar := by
  constructor
  · intro h
    obtain ⟨p, rfl, hlevel, hmessage⟩ := accepted_shape h
    have hbrackets : (before ++ p.before) ++ '['.toUInt8 :: (p.timestampText ++ after)
        = stream records := by
      rw [← hpiece]
      simp [RecordParts.text]
    obtain ⟨pre, r, post, rfl, hplace⟩ := bracket_place hplain hbrackets
    have hr := hplain r (by simp)
    rcases hplace with hw | ⟨hw, hx⟩
    · -- the first bracket opens a timestamp
      rw [hw, stream_append, stream_cons] at hbrackets
      have hrest := (List.cons.inj (List.append_cancel_left hbrackets)).2
      rw [RecordParts.timestampText, Record.timestampField, Record.levelField] at hrest
      simp only [List.append_assoc, List.cons_append] at hrest
      obtain ⟨htimestamp, hrest⟩ :=
        append_cons_inj p.timestamp_free hr.timestamp.closing_free hrest
      obtain ⟨hbetween, hrest⟩ := append_cons_inj p.between_free (by decide) hrest
      rw [RecordParts.levelText] at hrest
      simp only [List.append_assoc, List.cons_append] at hrest
      obtain ⟨hname, -⟩ := append_cons_inj p.level_free (levelToString_plain r.level).2.1 hrest
      refine ⟨pre, r, post, p.before, p.rest, rfl, hw, p.before_free, ?_, ?_, hmessage⟩
      · rw [RecordParts.text, RecordParts.timestampText, RecordParts.levelText, htimestamp,
          hbetween, hname, Record.header, Record.timestampField]
        simp
      · rw [hname, stringToLevel_levelToString] at hlevel
        exact (Option.some.inj hlevel).symm
    · -- the first bracket opens a level, so the second would open a timestamp
      rw [RecordParts.timestampText, Record.levelField] at hx
      simp only [List.append_assoc, List.cons_append] at hx
      obtain ⟨-, hrest⟩ := append_cons_inj p.timestamp_free (levelToString_plain r.level).2.1 hx
      exact absurd hrest (between_fields (fun q hq => hplain q (by simp [hq])) hr p hlevel after)
  · rintro ⟨pre, r, post, tail, text, rfl, -, htail, rfl, rfl, rfl⟩
    exact accepted_header (hplain r (by simp)) htail text

/-! ## Whole records -/

/-- What records in one payload count for: the first of them, its message
running on through the others. -/
def joined : List Record → Option (Bytes × LogLevel)
  | [] => none
  | r :: rs => some ((r.message ++ stream rs).dropWhile isspaceChar, r.level)

/-- **Records that arrive together count for one**, whatever their messages
are. -/
theorem accepted_stream {rs : List Record} (hts : ∀ r ∈ rs, ']'.toUInt8 ∉ r.timestamp) :
    accepted? (stream rs) = joined rs := by
  cases rs with
  | nil => rfl
  | cons r rs =>
    have hclose := hts r (List.mem_cons_self ..)
    have hrecord : stream (r :: rs) = formatMessage r.timestamp (r.message ++ stream rs) r.level := by
      show r.text ++ stream rs = _
      simp [Record.text, formatMessage]
    unfold accepted?
    rw [hrecord, parseMessageFromLog_formatMessage _ _ hclose, parseLevelFromLog_formatMessage _ _ hclose]
    rfl

/-! ## Nothing is made up -/

/-- The level that a text which begins with `[` gives up to the next `]`. -/
def levelMark : Bytes → Option LogLevel
  | [] => none
  | c :: s =>
    if c = '['.toUInt8 ∧ ']'.toUInt8 ∈ s then stringToLevel (s.takeWhile (· != ']'.toUInt8))
    else none

theorem levelMark_bracket {d : Bytes} (hd : ']'.toUInt8 ∉ d) (s : Bytes) :
    levelMark ('['.toUInt8 :: (d ++ ']'.toUInt8 :: s)) = stringToLevel d := by
  have htake : (d ++ ']'.toUInt8 :: s).takeWhile (· != ']'.toUInt8) = d := by
    refine takeWhile_span (fun c hc => ?_) (fun c hc => ?_)
    · have hne : c ≠ ']'.toUInt8 := by
        intro heq
        exact hd (heq ▸ hc)
      simpa using hne
    · obtain rfl : ']'.toUInt8 = c := Option.some.inj hc
      simp
  rw [levelMark, if_pos ⟨rfl, by simp⟩, htake]

/-- No mark begins with another byte. -/
theorem levelMark_of_ne {c : Byte} (hc : c ≠ '['.toUInt8) (s : Bytes) : levelMark (c :: s) = none :=
  if_neg fun h => hc h.1

theorem levelMark_stable : Stable levelMark := by
  intro s t level h
  cases s with
  | nil => exact absurd h (by simp [levelMark])
  | cons c s =>
    by_cases hmark : c = '['.toUInt8 ∧ ']'.toUInt8 ∈ s
    · obtain ⟨rfl, hclose⟩ := hmark
      obtain ⟨d, rest, rfl, hd⟩ := List.eq_append_cons_of_mem hclose
      rw [levelMark_bracket hd] at h
      rw [List.cons_append, List.append_assoc, List.cons_append, levelMark_bracket hd]
      exact h
    · rw [levelMark, if_neg hmark] at h
      exact absurd h (by simp)

/-- Between two `[` there is no mark. -/
theorem marks_past {s : Bytes} (hs : '['.toUInt8 ∉ s) (t : Bytes) :
    occurrences levelMark (s ++ t) = occurrences levelMark t := by
  refine occurrences_append_of_none (fun c hc u => levelMark_of_ne ?_ u) t
  intro heq
  exact hs (heq ▸ hc)

/-- The marks of the stream are the levels of its records. -/
theorem marks_stream {records : List Record} (hplain : ∀ r ∈ records, r.Plain) :
    occurrences levelMark (stream records) = records.map Record.level := by
  induction records with
  | nil => rfl
  | cons r records ih =>
    have hr := hplain r (List.mem_cons_self ..)
    have htimestamp (s : Bytes) : levelMark ('['.toUInt8 :: (r.timestampField ++ s)) = none := by
      rw [Record.timestampField, List.append_assoc, List.cons_append,
        levelMark_bracket hr.timestamp.closing_free]
      exact hr.timestamp.unnamed
    have hlevel (s : Bytes) : levelMark ('['.toUInt8 :: (r.levelField ++ s)) = some r.level := by
      rw [Record.levelField, List.append_assoc, List.cons_append,
        levelMark_bracket (levelToString_plain r.level).2.1]
      exact stringToLevel_levelToString r.level
    rw [stream_cons, occurrences, htimestamp, Option.toList_none, List.nil_append,
      marks_past hr.timestampField_free, occurrences, hlevel, marks_past hr.levelField_free,
      ih fun q hq => hplain q (List.mem_cons_of_mem _ hq)]
    rfl

/-- A payload that is accepted has the mark of its level. -/
theorem accepted_marked {payload message : Bytes} {level : LogLevel}
    (h : accepted? payload = some (message, level)) : level ∈ occurrences levelMark payload := by
  obtain ⟨p, rfl, hlevel, -⟩ := accepted_shape h
  have hmark : levelMark ('['.toUInt8 :: p.levelText) = some level := by
    rw [RecordParts.levelText, levelMark_bracket p.level_free]
    exact hlevel
  have hsplit : p.text = (p.before ++ '['.toUInt8 :: (p.timestamp ++ ']'.toUInt8 :: p.between))
      ++ '['.toUInt8 :: p.levelText := by
    simp [RecordParts.text, RecordParts.timestampText]
  rw [hsplit]
  exact mem_occurrences (by simp) hmark

/-- **Nothing is made up.** However the stream is cut, and wherever it breaks
off, the levels counted are a subsequence of the levels of its records. -/
theorem counted_sublist {records : List Record} (hplain : ∀ r ∈ records, r.Plain)
    {payloads : List Bytes} (hcut : payloads.flatten <+: stream records) :
    ((accepted payloads).map Prod.snd).Sublist (records.map Record.level) := by
  have hmarked : ∀ (payload : Bytes) (level : LogLevel),
      (accepted? payload).map Prod.snd = some level → level ∈ occurrences levelMark payload := by
    intro payload level h
    obtain ⟨⟨message, level'⟩, haccepted, rfl⟩ := Option.map_eq_some_iff.mp h
    exact accepted_marked haccepted
  rw [accepted, List.map_filterMap, ← marks_stream hplain]
  exact (filterMap_sublist_flatMap hmarked payloads).trans
    ((flatMap_occurrences_sublist levelMark_stable payloads).trans
      (occurrences_prefix_sublist levelMark_stable hcut))

end LogMetrics
