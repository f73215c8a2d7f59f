import LogMetrics.MetricsApplication.Main
import LogMetrics.TestApplication.ArgumentParser

/-!
# Numeric arguments

Both programs read a number of their command line with `std::stoi` and test
its range, and neither asks where `std::stoi` stopped: what stands behind the
digits is not looked at, although both tell the user that the number is
invalid when there are no digits to read. `8080abc` is the port 8080
(`numeral_prefix_accepted`).

`accepts_numerals_iff`: this is the only fault. At each of the four places an
argument is accepted only as a whole numeral in range, unless it is such a
numeral directly followed by a character that is not a digit.
-/

namespace LogMetrics

open LogMetrics.MetricsApplication (readParameters readParameters_ok_iff readPort readPort_ok_iff
  readMessageInterval readMessageInterval_ok_iff readTimeout readTimeout_ok_iff)
open LogMetrics.TestApplication (parseArguments parseArguments_decides arguments_socket_iff)

/-- Where a number stands on a command line. -/
inductive NumberPlace where
  | socketPort
  | port
  | messageInterval
  | timeout
  deriving DecidableEq, Repr

namespace NumberPlace

/-- The largest number in range. -/
def bound : NumberPlace → Int
  | .socketPort => 65535
  | .port => 65535
  | .messageInterval => intMax
  | .timeout => intMax

/-- The argument stands there in a command line that is accepted. -/
def Accepts (arg : Bytes) : NumberPlace → Prop
  | .socketPort => ∃ host rest config,
      parseArguments stoi (ascii "--socket" :: host :: arg :: rest) = .ok config
  | .port => ∃ program host intervalStr timeoutStr parameters,
      readParameters program [host, arg, intervalStr, timeoutStr] = .ok parameters
  | .messageInterval => ∃ program host portStr timeoutStr parameters,
      readParameters program [host, portStr, arg, timeoutStr] = .ok parameters
  | .timeout => ∃ program host portStr intervalStr parameters,
      readParameters program [host, portStr, intervalStr, arg] = .ok parameters

end NumberPlace

/-- The whole text is a numeral, of a number from 1 to the bound. -/
def WholeNumeral (bound : Int) (text : Bytes) : Prop :=
  ∃ value, Numeral text value ∧ 1 ≤ value ∧ value ≤ bound

/-- The text is such a numeral directly followed by a character that is not a
digit. -/
def NumeralWithRest (bound : Int) (text : Bytes) : Prop :=
  ∃ word c rest, text = word ++ c :: rest ∧ WholeNumeral bound word ∧ isdigit c = false

/-- The four tests are the same one: `std::stoi` gives a number in range. -/
theorem accepts_iff (place : NumberPlace) (arg : Bytes) :
    place.Accepts arg ↔ ∃ value, stoi arg = some value ∧ 1 ≤ value ∧ value ≤ place.bound := by
  have hport1 : readPort (ascii "1") = .ok 1 := by decide
  have hinterval1 : readMessageInterval (ascii "1") = .ok 1 := by decide
  have htimeout1 : readTimeout (ascii "1") = .ok 1 := by decide
  have hle {value : Int} (h : stoi arg = some value) : value ≤ intMax := by
    obtain ⟨-, -, -, -, -, -, hmax⟩ := stoi_eq_some_iff.1 h
    exact hmax
  cases place with
  | socketPort =>
    constructor
    · intro h
      obtain ⟨host, rest, config, hok⟩ := h
      have hargs := ((parseArguments_decides stoi _).ok_iff config).1 hok
      obtain ⟨host', portStr, port, rest', level, hrest, hport, hrange, -⟩ :=
        arguments_socket_iff.1 hargs
      simp only [List.cons.injEq] at hrest
      obtain ⟨-, rfl, -⟩ := hrest
      exact ⟨port, hport, hrange⟩
    · intro h
      obtain ⟨value, hstoi, hrange⟩ := h
      exact ⟨[], [], _, ((parseArguments_decides stoi _).ok_iff _).2
        (.socket hstoi hrange .absent)⟩
  | port =>
    constructor
    · intro h
      obtain ⟨program, host, intervalStr, timeoutStr, parameters, hok⟩ := h
      exact ⟨_, readPort_ok_iff.1 (readParameters_ok_iff.1 hok).2.1⟩
    · intro h
      obtain ⟨value, hvalue⟩ := h
      exact ⟨[], [], ascii "1", ascii "1", ⟨[], value, 1, 1⟩, readParameters_ok_iff.2
        ⟨rfl, readPort_ok_iff.2 hvalue, hinterval1, htimeout1⟩⟩
  | messageInterval =>
    constructor
    · intro h
      obtain ⟨program, host, portStr, timeoutStr, parameters, hok⟩ := h
      obtain ⟨hstoi, hpos⟩ := readMessageInterval_ok_iff.1 (readParameters_ok_iff.1 hok).2.2.1
      exact ⟨_, hstoi, hpos, hle hstoi⟩
    · intro h
      obtain ⟨value, hstoi, hpos, -⟩ := h
      exact ⟨[], [], ascii "1", ascii "1", ⟨[], 1, value, 1⟩, readParameters_ok_iff.2
        ⟨rfl, hport1, readMessageInterval_ok_iff.2 ⟨hstoi, hpos⟩, htimeout1⟩⟩
  | timeout =>
    constructor
    · intro h
      obtain ⟨program, host, portStr, intervalStr, parameters, hok⟩ := h
      obtain ⟨hstoi, hpos⟩ := readTimeout_ok_iff.1 (readParameters_ok_iff.1 hok).2.2.2
      exact ⟨_, hstoi, hpos, hle hstoi⟩
    · intro h
      obtain ⟨value, hstoi, hpos, -⟩ := h
      exact ⟨[], [], ascii "1", ascii "1", ⟨[], 1, 1, value⟩, readParameters_ok_iff.2
        ⟨rfl, hport1, hinterval1, readTimeout_ok_iff.2 ⟨hstoi, hpos⟩⟩⟩

theorem NumberPlace.bound_le (place : NumberPlace) : place.bound ≤ intMax := by
  cases place <;> decide

/-- **Only a numeral followed by other text is accepted wrongly.** At each
place, an argument is accepted only as a whole numeral in range exactly if it
is not a numeral in range with more text behind it. -/
theorem accepts_numerals_iff (place : NumberPlace) (arg : Bytes) :
    (place.Accepts arg → WholeNumeral place.bound arg) ↔ ¬NumeralWithRest place.bound arg := by
  rw [accepts_iff]
  constructor
  · intro haccepted hrest
    obtain ⟨word, c, rest, rfl, ⟨value, hword, hpos, hle⟩, hc⟩ := hrest
    have hends : EndsNumeral (c :: rest) := by
      intro c' hc'
      obtain rfl := Option.some.inj hc'
      exact hc
    have hstoi : stoi (word ++ c :: rest) = some value := by
      have hmin : intMin ≤ value := Int.le_trans (by decide) hpos
      rw [stoi_numeral hword hends, if_pos ⟨hmin, Int.le_trans hle place.bound_le⟩]
    obtain ⟨value', hwhole, -⟩ := haccepted ⟨value, hstoi, hpos, hle⟩
    -- the rest the scan leaves is `c :: rest` by the first numeral and empty by the second
    have hleft := stoiRest_numeral hword hends
    have hnil : EndsNumeral [] := fun c' hc' => absurd hc' (by simp)
    have hright := stoiRest_numeral hwhole hnil
    rw [List.append_nil, hleft] at hright
    exact absurd hright (by simp)
  · intro hrest haccepted
    obtain ⟨value, hstoi, hpos, hle⟩ := haccepted
    obtain ⟨word, tail, rfl, hword, htail, -⟩ := stoi_eq_some_iff.1 hstoi
    cases tail with
    | nil => exact ⟨value, by rwa [List.append_nil], hpos, hle⟩
    | cons c rest => exact absurd ⟨word, c, rest, rfl, ⟨value, hword, hpos, hle⟩, htail c rfl⟩ hrest

/-- `--socket` takes `8080abc` for a port. -/
theorem numeral_prefix_accepted :
    ¬∀ (place : NumberPlace) (arg : Bytes), place.Accepts arg → WholeNumeral place.bound arg := by
  intro h
  obtain ⟨value, hnumeral, -⟩ := h .socketPort (ascii "8080abc")
    ⟨ascii "127.0.0.1", [], { mode := .socket, host := ascii "127.0.0.1", port := 8080 }, by decide⟩
  exact absurd (hnumeral.last 'c'.toUInt8 rfl) (by decide)

end LogMetrics
