import LogMetrics.Base.Strip
import LogMetrics.Logger.LevelName
import LogMetrics.TestApplication.CommandParser

/-!
# The grammar of the lines a user types

`parse_command` finds the level word as the last of the tokens that `split`
returns, and the message by an `rfind` on the unsplit text. On a line that has
been trimmed the two cut at the same place: the line does not end with a
blank, so what follows its last `' '` is the last token (`split_append`), and
it does not start with one, so there is a token in front of it
(`split_ne_nil`).

`CommandGrammar` is the grammar; `parseCommand_iff` says that `parse_command`
implements it.
-/

namespace LogMetrics.TestApplication

open LogMetrics.Base
open LogMetrics.Logger (LogLevel LevelName stringToLevel stringToLevel_eq_some_iff)

/-- One of `" \t\r\n"`. -/
def isBlank (c : Byte) : Bool := blanks.contains c

/-! ## The grammar -/

/-- `t` is `p`, its last `' '`, and a level's name with blanks around it. -/
structure LevelCut (t p w : Bytes) (level : LogLevel) : Prop where
  eq : t = p ++ ' '.toUInt8 :: w
  last : ' '.toUInt8 ∉ w
  name : LevelName (strip isBlank w) level

/-- What a line means, blanks at its ends stripped. -/
inductive CommandGrammar (t : Bytes) : Option ParsedCommand → Prop
  | empty (h : t = []) : CommandGrammar t none
  | exit (h : t = ascii "exit" ∨ t = ascii "quit") : CommandGrammar t (some { type := .exit })
  | help (h : t = ascii "help") : CommandGrammar t (some { type := .help })
  | withLevel (p w : Bytes) (level : LogLevel) (h : LevelCut t p w level) :
      CommandGrammar t
        (some { type := .logMessage, message := strip isBlank p, level := some level })
  | withoutLevel (hempty : t ≠ []) (hexit : ¬(t = ascii "exit" ∨ t = ascii "quit"))
      (hhelp : t ≠ ascii "help") (h : ∀ p w level, ¬LevelCut t p w level) :
      CommandGrammar t (some { type := .logMessage, message := t })

/-! ## `trim` and `split` -/

/-- `trim` strips the blanks. -/
theorem trim_eq_strip (str : Bytes) : trim str = strip isBlank str := by
  obtain ⟨a, b, hstr, ha, hb, hstripped⟩ := exists_strip isBlank str
  generalize strip isBlank str = t at hstr hstripped ⊢
  cases t with
  | nil =>
    have hall : ∀ c ∈ str, blanks.contains c = true := by
      intro c hc
      rw [hstr] at hc
      exact (List.mem_append.mp hc).elim (ha c) (hb c)
    rw [trim, findFirstNotOf_eq_none hall]
  | cons c rest =>
    have hfirst : findFirstNotOf str blanks = some a.length := by
      rw [hstr]
      exact findFirstNotOf_append_cons ha (hstripped.head c rest rfl)
    obtain ⟨init, last, hinit⟩ : ∃ init last, c :: rest = init ++ [last] :=
      ⟨_, _, (List.dropLast_append_getLast (List.cons_ne_nil c rest)).symm⟩
    have hlast : findLastNotOf str blanks = some (a.length + init.length) := by
      rw [hstr, hinit, ← List.length_append]
      have := findLastNotOf_append_cons (a := a ++ init) hb (hstripped.last init last hinit)
      simpa using this
    have hlen : a.length + init.length - a.length + 1 = (c :: rest).length := by
      rw [hinit, List.length_append, List.length_singleton]
      omega
    simp only [trim, hfirst, hlast, hlen]
    rw [hstr, substr_append]

theorem toNat_le_of_isBlank (c : Byte) : isBlank c = true → c.toNat ≤ 32 :=
  forall_byte (P := fun c => isBlank c = true → c.toNat ≤ 32) (by decide +kernel) c

/-- What follows the last `' '` is the last token, if it is not blank. -/
theorem split_append {p w : Bytes} (hw : ' '.toUInt8 ∉ w) (hne : trim w ≠ []) :
    split (p ++ ' '.toUInt8 :: w) ' '.toUInt8
      = split (p ++ [' '.toUInt8]) ' '.toUInt8 ++ [trim w] := by
  have hnil : w ≠ [] := by
    rintro rfl
    exact hne (by rw [trim_eq_strip]; rfl)
  simp only [split]
  rw [getlines_append, getlines_self hw hnil, List.map_append, List.filter_append, List.map_singleton,
    List.filter_cons_of_pos (by simpa using hne), List.filter_nil]

/-- A text that does not start with a blank has a token. -/
theorem split_ne_nil {c : Byte} (hc : isBlank c = false) (s : Bytes) :
    split (c :: s) ' '.toUInt8 ≠ [] := by
  have hspace : c ≠ ' '.toUInt8 := by
    rintro rfl
    exact absurd hc (by decide)
  obtain ⟨line, lines, hlines⟩ := getlines_cons hspace s
  obtain ⟨rest, hstrip⟩ := strip_cons (s := line) hc
  rw [split, hlines, List.map_cons, trim_eq_strip, hstrip]
  simp

/-- A stripped text without `' '` is its only token. -/
theorem split_self {t : Bytes} (ht : Stripped isBlank t) (hne : t ≠ []) (hspace : ' '.toUInt8 ∉ t) :
    split t ' '.toUInt8 = [t] := by
  rw [split, getlines_self hspace hne, List.map_singleton, trim_eq_strip, strip_of_stripped ht,
    List.filter_cons_of_pos (by simpa using hne), List.filter_nil]

/-- A text with `' '` in it is cut at the last one. -/
theorem exists_lastSpace {t : Bytes} (h : ' '.toUInt8 ∈ t) :
    ∃ p w, t = p ++ ' '.toUInt8 :: w ∧ ' '.toUInt8 ∉ w := by
  obtain ⟨a, b, hab, ha⟩ := List.eq_append_cons_of_mem (List.mem_reverse.mpr h)
  refine ⟨b.reverse, a.reverse, ?_, by simpa using ha⟩
  rw [← List.reverse_reverse t, hab]
  simp

/-- It is cut there in one way. -/
theorem lastSpace_unique {p w p' w' : Bytes} (hw : ' '.toUInt8 ∉ w) (hw' : ' '.toUInt8 ∉ w')
    (h : p ++ ' '.toUInt8 :: w = p' ++ ' '.toUInt8 :: w') : p = p' ∧ w = w' := by
  have hlen := rfind_append_cons (a := p) hw
  rw [h, rfind_append_cons hw'] at hlen
  obtain ⟨hp, htail⟩ := List.append_inj h (Option.some.inj hlen).symm
  exact ⟨hp, (List.cons.inj htail).2⟩

/-- The commands that are a word of their own have no `' '`. -/
theorem not_word_of_space {t : Bytes} (h : ' '.toUInt8 ∈ t) :
    ¬(t = ascii "exit" ∨ t = ascii "quit") ∧ t ≠ ascii "help" := by
  refine ⟨?_, ?_⟩
  · rintro (rfl | rfl)
    · exact absurd h (by decide)
    · exact absurd h (by decide)
  · rintro rfl
    exact absurd h (by decide)

/-! ## Where a trimmed line is cut -/

/-- `parse_level` is the logger's lookup written out again. -/
theorem parseLevel_eq_some_iff {text : Bytes} {level : LogLevel} :
    parseLevel text = some level ↔ LevelName text level :=
  stringToLevel_eq_some_iff

/-- A stripped text that is cut at its last `' '`: in front of it and behind
it there is more than blanks. -/
theorem cut_nonblank {t p w : Bytes} (ht : Stripped isBlank t) (heq : t = p ++ ' '.toUInt8 :: w) :
    (∃ c rest, p = c :: rest ∧ isBlank c = false) ∧ trim w ≠ [] := by
  constructor
  · cases p with
    | nil => exact absurd (ht.head _ _ heq) (by decide)
    | cons c rest => exact ⟨c, rest, rfl, ht.head c _ heq⟩
  · rw [trim_eq_strip]
    intro hall
    rw [strip_eq_nil_iff] at hall
    rcases List.eq_nil_or_concat w with rfl | ⟨init, c, rfl⟩
    · exact absurd (ht.last p _ heq) (by decide)
    · have hlast := ht.last (p ++ ' '.toUInt8 :: init) c (by rw [heq]; simp)
      rw [hall c (by simp)] at hlast
      exact absurd hlast (by decide)

/-- The last token is what follows the last `' '`, less the blanks in front. -/
theorem getLast?_split {t : Bytes} (ht : Stripped isBlank t) (hne : t ≠ []) :
    (split t ' '.toUInt8).getLast? = some (trim (t.rtakeWhile (· != ' '.toUInt8))) := by
  by_cases hspace : ' '.toUInt8 ∈ t
  · obtain ⟨p, w, heq, hw⟩ := exists_lastSpace hspace
    obtain ⟨-, htrim⟩ := cut_nonblank ht heq
    rw [heq, split_append hw htrim, rtakeWhile_append_cons hw, List.getLast?_concat]
  · rw [split_self ht hne hspace, rtakeWhile_of_not_mem hspace, trim_eq_strip,
      strip_of_stripped ht]
    rfl

/-- The message in front of the cut is not empty. -/
theorem strip_front {t p w : Bytes} (ht : Stripped isBlank t) (heq : t = p ++ ' '.toUInt8 :: w) :
    ∃ c rest rest', strip isBlank p = c :: rest ∧ t = c :: rest' := by
  obtain ⟨⟨c, rest, rfl, hc⟩, -⟩ := cut_nonblank ht heq
  obtain ⟨rest', hstrip⟩ := strip_cons (s := rest) hc
  exact ⟨c, rest', _, hstrip, heq⟩

/-- A line with `' '` in it, once trimmed, is judged by what follows the last
one. -/
theorem parseCommand_cut {s t p w : Bytes} (hs : trim s = t) (ht : Stripped isBlank t)
    (heq : t = p ++ ' '.toUInt8 :: w) (hw : ' '.toUInt8 ∉ w) :
    parseCommand s = some (match parseLevel (trim w) with
      | some level => { type := .logMessage, message := trim p, level := some level }
      | none => { type := .logMessage, message := t }) := by
  obtain ⟨⟨c, rest, hp, hc⟩, htrim⟩ := cut_nonblank ht heq
  have hspace : ' '.toUInt8 ∈ t := by
    rw [heq]
    simp
  have hempty : t.isEmpty = false := by
    rw [heq]
    simp
  have hwords := not_word_of_space hspace
  have htokens : split t ' '.toUInt8 = split (p ++ [' '.toUInt8]) ' '.toUInt8 ++ [trim w] := by
    rw [heq]
    exact split_append hw htrim
  have hlong : (split t ' '.toUInt8).length > 1 := by
    have hfront : split (p ++ [' '.toUInt8]) ' '.toUInt8 ≠ [] := by
      rw [hp]
      exact split_ne_nil hc _
    have := List.length_pos_iff.mpr hfront
    rw [htokens, List.length_append, List.length_singleton]
    omega
  have hbefore : beforeLastBlank t = p := by
    rw [beforeLastBlank, heq, rfind_append_cons hw]
    exact List.take_left
  unfold parseCommand
  simp only [hs, hempty, Bool.false_eq_true, if_false, if_neg hwords.1, if_neg hwords.2]
  rw [show (split t ' '.toUInt8).getLast? = some (trim w) by rw [htokens]; simp]
  dsimp only
  cases parseLevel (trim w) with
  | none => rfl
  | some level =>
    dsimp only
    rw [if_pos hlong, hbefore]

/-- A line without `' '`, once trimmed, that is not a word of its own is a
message. -/
theorem parseCommand_whole {s t : Bytes} (hs : trim s = t) (ht : Stripped isBlank t)
    (hempty : t ≠ []) (hexit : ¬(t = ascii "exit" ∨ t = ascii "quit")) (hhelp : ¬t = ascii "help")
    (hspace : ' '.toUInt8 ∉ t) :
    parseCommand s = some { type := .logMessage, message := t } := by
  unfold parseCommand
  simp only [hs, if_neg hexit, if_neg hhelp, split_self ht hempty hspace]
  rw [if_neg (by simpa using hempty)]
  simp only [List.getLast?_singleton, List.length_singleton]
  split
  · rw [if_neg (by omega)]
  · rfl

/-! ## `parse_command` implements the grammar -/

/-- A text is cut in one way. -/
theorem LevelCut.unique {t p w p' w' : Bytes} {level level' : LogLevel} (h : LevelCut t p w level)
    (h' : LevelCut t p' w' level') : p = p' ∧ level = level' := by
  obtain ⟨hp, rfl⟩ := lastSpace_unique h.last h'.last (h.eq.symm.trans h'.eq)
  exact ⟨hp, h.name.unique h'.name⟩

/-- A text that is cut is not a word of its own. -/
theorem LevelCut.not_word {t p w : Bytes} {level : LogLevel} (h : LevelCut t p w level) :
    t ≠ [] ∧ ¬(t = ascii "exit" ∨ t = ascii "quit") ∧ t ≠ ascii "help" := by
  have hspace : ' '.toUInt8 ∈ t := by
    rw [h.eq]
    simp
  exact ⟨List.ne_nil_of_mem hspace, not_word_of_space hspace⟩

/-- The grammar gives every text one meaning. -/
theorem CommandGrammar.functional {t : Bytes} {r r' : Option ParsedCommand}
    (h : CommandGrammar t r) (h' : CommandGrammar t r') : r = r' := by
  cases h with
  | empty h =>
    subst h
    cases h' with
    | empty => rfl
    | exit h' => exact absurd h' (by decide)
    | help h' => exact absurd h' (by decide)
    | withLevel p w level h' => exact absurd rfl h'.not_word.1
    | withoutLevel hempty => exact absurd rfl hempty
  | exit h =>
    cases h' with
    | empty h' => exact absurd (h' ▸ h) (by decide)
    | exit => rfl
    | help h' => exact absurd (h' ▸ h) (by decide)
    | withLevel p w level h' => exact absurd h h'.not_word.2.1
    | withoutLevel _ hexit => exact absurd h hexit
  | help h =>
    subst h
    cases h' with
    | empty h' => exact absurd h' (by decide)
    | exit h' => exact absurd h' (by decide)
    | help => rfl
    | withLevel p w level h' => exact absurd rfl h'.not_word.2.2
    | withoutLevel _ _ hhelp => exact absurd rfl hhelp
  | withLevel p w level h =>
    cases h' with
    | empty h' => exact absurd h' h.not_word.1
    | exit h' => exact absurd h' h.not_word.2.1
    | help h' => exact absurd h' h.not_word.2.2
    | withLevel p' w' level' h' =>
      obtain ⟨rfl, rfl⟩ := h.unique h'
      rfl
    | withoutLevel _ _ _ hnot => exact absurd h (hnot p w level)
  | withoutLevel hempty hexit hhelp hnot =>
    cases h' with
    | empty h' => exact absurd h' hempty
    | exit h' => exact absurd h' hexit
    | help h' => exact absurd h' hhelp
    | withLevel p w level h' => exact absurd h' (hnot p w level)
    | withoutLevel => rfl

/-- The result is what the grammar says. -/
theorem parseCommand_sound (s : Bytes) : CommandGrammar (strip isBlank s) (parseCommand s) := by
  obtain ⟨-, -, -, -, -, ht⟩ := exists_strip isBlank s
  have hs := trim_eq_strip s
  generalize strip isBlank s = t at ht hs ⊢
  by_cases hempty : t = []
  · have hnone : parseCommand s = none := by
      simp [parseCommand, hs, hempty]
    rw [hnone]
    exact .empty hempty
  · by_cases hexit : t = ascii "exit" ∨ t = ascii "quit"
    · have hcommand : parseCommand s = some { type := .exit } := by
        simp [parseCommand, hs, hempty, hexit]
      rw [hcommand]
      exact .exit hexit
    · by_cases hhelp : t = ascii "help"
      · have hcommand : parseCommand s = some { type := .help } := by
          simp only [parseCommand, hs, if_neg hexit, if_pos hhelp]
          rw [if_neg (by simpa using hempty)]
        rw [hcommand]
        exact .help hhelp
      · by_cases hspace : ' '.toUInt8 ∈ t
        · obtain ⟨p, w, heq, hw⟩ := exists_lastSpace hspace
          rw [parseCommand_cut hs ht heq hw]
          cases hlevel : parseLevel (trim w) with
          | some level =>
            rw [trim_eq_strip] at hlevel ⊢
            exact .withLevel p w level ⟨heq, hw, parseLevel_eq_some_iff.mp hlevel⟩
          | none =>
            refine .withoutLevel hempty hexit hhelp fun p' w' level hcut => ?_
            -- the text is cut at its last `' '` only, and that word is no level
            obtain ⟨-, rfl⟩ := lastSpace_unique hw hcut.last (heq.symm.trans hcut.eq)
            rw [trim_eq_strip, parseLevel_eq_some_iff.mpr hcut.name] at hlevel
            exact absurd hlevel (by simp)
        · rw [parseCommand_whole hs ht hempty hexit hhelp hspace]
          refine .withoutLevel hempty hexit hhelp fun p w level hcut => hspace ?_
          rw [hcut.eq]
          simp

theorem parseCommand_iff (s : Bytes) (r : Option ParsedCommand) :
    parseCommand s = r ↔ CommandGrammar (strip isBlank s) r := by
  constructor
  · rintro rfl
    exact parseCommand_sound s
  · exact (parseCommand_sound s).functional

/-- A message keeps the start of its line, and has no blanks at its ends. -/
theorem message_stripped {s : Bytes} {command : ParsedCommand} (h : parseCommand s = some command)
    (htype : command.type = .logMessage) :
    Stripped isBlank command.message
      ∧ ∃ c rest rest', command.message = c :: rest ∧ strip isBlank s = c :: rest' := by
  obtain ⟨-, -, -, -, -, ht⟩ := exists_strip isBlank s
  have hgrammar := (parseCommand_iff s _).mp h
  generalize strip isBlank s = t at ht hgrammar ⊢
  cases hgrammar with
  | exit h => exact absurd htype (by simp)
  | help h => exact absurd htype (by simp)
  | withLevel p w level hcut =>
    obtain ⟨-, -, -, -, -, hp⟩ := exists_strip isBlank p
    exact ⟨hp, strip_front ht hcut.eq⟩
  | withoutLevel hempty =>
    obtain ⟨c, rest, hc⟩ := List.exists_cons_of_ne_nil hempty
    exact ⟨ht, c, rest, rest, hc, hc⟩

/-- More than one token means that there is a last `' '` to cut at. -/
theorem rfind_of_tokens {t : Bytes} (ht : Stripped isBlank t)
    (hlong : (split t ' '.toUInt8).length > 1) : (rfind t ' '.toUInt8).isSome := by
  by_cases hspace : ' '.toUInt8 ∈ t
  · obtain ⟨p, w, heq, hw⟩ := exists_lastSpace hspace
    rw [heq, rfind_append_cons hw]
    rfl
  · by_cases hempty : t = []
    · subst hempty
      exact absurd hlong (by decide)
    · rw [split_self ht hempty hspace] at hlong
      exact absurd hlong (by simp)

/-- A level name is one word. -/
theorem levelName_word {w : Bytes} {level : LogLevel} (h : LevelName w level) :
    w ≠ [] ∧ ' '.toUInt8 ∉ w ∧ Stripped isBlank w := by
  obtain ⟨hne, hletters⟩ := h.letters
  have hblank : ∀ c ∈ w, isBlank c = false := by
    intro c hc
    have hbound := (hletters c hc).1
    rw [Bool.eq_false_iff]
    intro hb
    have hsmall := toNat_le_of_isBlank c hb
    omega
  refine ⟨hne, fun hspace => ?_, fun c rest hw => hblank c (by rw [hw]; simp),
    fun init c hw => hblank c (by rw [hw]; simp)⟩
  exact absurd (hblank _ hspace) (by decide)

/-- A message and a level's name behind it are read back. -/
theorem parseCommand_message_level {m w : Bytes} {level : LogLevel} (hm : Stripped isBlank m)
    (hne : m ≠ []) (hw : LevelName w level) :
    parseCommand (m ++ ' '.toUInt8 :: w)
      = some { type := .logMessage, message := m, level := some level } := by
  obtain ⟨hwne, hspace, hwstripped⟩ := levelName_word hw
  obtain ⟨c, rest, rfl⟩ := List.exists_cons_of_ne_nil hne
  have ht : Stripped isBlank (c :: rest ++ ' '.toUInt8 :: w) := by
    refine ⟨fun c' rest' h => ?_, fun init c' h => ?_⟩
    · obtain ⟨rfl, -⟩ := List.cons.inj h
      exact hm.head c rest rfl
    · obtain ⟨init', c'', rfl⟩ : ∃ init' c'', w = init' ++ [c''] :=
        ⟨_, _, (List.dropLast_append_getLast hwne).symm⟩
      rw [← List.cons_append, ← List.append_assoc] at h
      obtain ⟨-, hc⟩ := List.append_inj' h rfl
      obtain rfl := (List.cons.inj hc).1
      exact hwstripped.last init' c'' rfl
  have hcut : LevelCut (c :: rest ++ ' '.toUInt8 :: w) (c :: rest) w level :=
    ⟨rfl, hspace, by rw [strip_of_stripped hwstripped]; exact hw⟩
  have hgrammar := CommandGrammar.withLevel _ _ _ hcut
  rw [strip_of_stripped hm] at hgrammar
  rw [parseCommand_iff, strip_of_stripped ht]
  exact hgrammar

/-- **`parse_command` implements the grammar.** -/
theorem parseCommand_grammar (s : Bytes) :
    (∀ r, parseCommand s = r ↔ CommandGrammar (strip isBlank s) r)
      ∧ (parseCommand s = none ↔ strip isBlank s = [])
      ∧ ((∃ command, parseCommand s = some command ∧ command.type = .exit)
          ↔ strip isBlank s = ascii "exit" ∨ strip isBlank s = ascii "quit")
      ∧ ((∃ command, parseCommand s = some command ∧ command.type = .help)
          ↔ strip isBlank s = ascii "help")
      ∧ (∀ command, parseCommand s = some command → command.type = .logMessage →
          command.message ≠ [] ∧ Stripped isBlank command.message)
      ∧ ((split (trim s) ' '.toUInt8).length > 1 → (rfind (trim s) ' '.toUInt8).isSome)
      ∧ ∀ m w level, m ≠ [] → Stripped isBlank m → LevelName w level →
          parseCommand (m ++ ' '.toUInt8 :: w)
            = some { type := .logMessage, message := m, level := some level } := by
  refine ⟨parseCommand_iff s, ?_, ?_, ?_, fun command h htype => ?_, fun hlong => ?_,
    fun m w level hne hm hw => parseCommand_message_level hm hne hw⟩
  · rw [parseCommand_iff]
    constructor
    · intro h
      cases h with
      | empty h => exact h
    · exact .empty
  · constructor
    · rintro ⟨command, h, htype⟩
      cases (parseCommand_iff s _).mp h with
      | exit hword => exact hword
      | help => exact absurd htype (by simp)
      | withLevel p w level h => exact absurd htype (by simp)
      | withoutLevel => exact absurd htype (by simp)
    · exact fun h => ⟨_, (parseCommand_iff s _).mpr (.exit h), rfl⟩
  · constructor
    · rintro ⟨command, h, htype⟩
      cases (parseCommand_iff s _).mp h with
      | exit => exact absurd htype (by simp)
      | help hword => exact hword
      | withLevel p w level h => exact absurd htype (by simp)
      | withoutLevel => exact absurd htype (by simp)
    · exact fun h => ⟨_, (parseCommand_iff s _).mpr (.help h), rfl⟩
  · obtain ⟨hstripped, c, rest, -, hmessage, -⟩ := message_stripped h htype
    exact ⟨by rw [hmessage]; simp, hstripped⟩
  · obtain ⟨-, -, -, -, -, ht⟩ := exists_strip isBlank s
    rw [trim_eq_strip] at hlong ⊢
    exact rfind_of_tokens ht hlong

end LogMetrics.TestApplication
