import LogMetrics.Logger.Utility

/-!
# Level names

A text is the name of a level when it is the level's name up to the case of
its ASCII letters. `string_to_level` accepts exactly the names
(`stringToLevel_eq_some_iff`): `::tolower` of a byte from 128 on, which is
negative as a `char`, leaves it alone, so only ASCII letters are folded
(`transformTolower_eq`).
-/

namespace LogMetrics.Logger

/-- An ASCII capital becomes small. -/
def lowerAscii (c : Byte) : Byte := if 65 ≤ c.toNat ∧ c.toNat ≤ 90 then c + 32 else c

/-- The text is the level's name, up to ASCII letter case. -/
def LevelName (text : Bytes) (level : LogLevel) : Prop :=
  text.map lowerAscii = (levelToString level).map lowerAscii

instance (text : Bytes) (level : LogLevel) : Decidable (LevelName text level) :=
  inferInstanceAs (Decidable (_ = _))

theorem tolower_eq (c : Byte) : UInt8.ofInt (tolower (toInt c)) = lowerAscii c :=
  forall_byte (P := fun c => UInt8.ofInt (tolower (toInt c)) = lowerAscii c) (by decide +kernel) c

theorem transformTolower_eq (text : Bytes) : transformTolower text = text.map lowerAscii :=
  List.map_congr_left fun c _ => tolower_eq c

/-- Names of different levels differ. -/
theorem LevelName.unique {text : Bytes} {l l' : LogLevel} (h : LevelName text l)
    (h' : LevelName text l') : l = l' := by
  have heq := h.symm.trans h'
  cases l <;> cases l' <;> first | rfl | exact absurd heq (by decide)

/-- `string_to_level` accepts the names, each for its level. -/
theorem stringToLevel_eq_some_iff {text : Bytes} {level : LogLevel} :
    stringToLevel text = some level ↔ LevelName text level := by
  constructor
  · intro h
    unfold stringToLevel at h
    simp only [transformTolower_eq] at h
    split at h
    next heq => cases h; exact heq
    next =>
      split at h
      next heq => cases h; exact heq
      next =>
        split at h
        next heq => cases h; exact heq
        next =>
          split at h
          next heq => cases h; exact heq
          next =>
            split at h
            next heq => cases h; exact heq
            next => exact absurd h (by simp)
  · intro h
    unfold stringToLevel
    simp only [transformTolower_eq, show text.map lowerAscii = _ from h]
    cases level <;> decide

/-- A level name starts with a letter and has no white space in it. -/
theorem LevelName.letters {text : Bytes} {level : LogLevel} (h : LevelName text level) :
    text ≠ [] ∧ ∀ c ∈ text, 65 ≤ c.toNat ∧ c.toNat ≤ 122 := by
  have hname : levelToString level ≠ []
      ∧ ((levelToString level).map lowerAscii).all (fun c => 97 ≤ c.toNat && c.toNat ≤ 122) = true := by
    cases level <;> decide
  refine ⟨fun hnil => ?_, fun c hc => ?_⟩
  · rw [LevelName, hnil, List.map_nil] at h
    exact hname.1 (List.map_eq_nil_iff.mp h.symm)
  · have hlow := List.all_eq_true.mp hname.2 (lowerAscii c) (h ▸ List.mem_map_of_mem hc)
    rw [Bool.and_eq_true, decide_eq_true_eq, decide_eq_true_eq] at hlow
    unfold lowerAscii at hlow
    split at hlow
    next hcap => omega
    next => omega

end LogMetrics.Logger
